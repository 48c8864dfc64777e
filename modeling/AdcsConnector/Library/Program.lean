/-
Programs with a state, exceptions and loops: run from a state, a program
returns a value or raises an exception, in a new state, or it has run out of
the fuel its loops were given.

* `Except.Raises`: the exceptions of a computation are of a kind, with the rules for
  sequences and loops;
* `Program.Returns m s a t`: run from `s`, the program returns `a` in `t`;
* `returns_bind`: a sequence returns what its parts return one after the other;
* `returns_unique`: a program returns one value in one state;
* `bind_ne_none`, `foldlM_ne_none`: sequences and loops end when their parts do;
* `Keeps g m`: whatever comes of `m`, it leaves `g` of the state as it was;
* `IsImage φ m n`: the program `m` returns the images of what `n` returns, with
  the rules for sequences and loops;
* `SameResults m n`: whatever states they start from, the two end in the same way, up
  to the state;
* `Accumulates`: a program that only appends to the list it is given, a
  property that loops over such programs keep (`Accumulates.foldlM`);
* `exists_returns_foldlM`: the loop rule, for a body that appends `g a` for
  every item `a`;
* `exists_parts_of_foldlM`: what such a loop has appended, part by part.
-/
import Mathlib.Tactic

universe u

/-- A sequence of computations that may raise succeeds when its parts do. -/
lemma Except.bind_eq_ok_iff {ε α β : Type u} {x : Except ε α} {f : α → Except ε β} {b : β} :
    (x >>= f) = .ok b ↔ ∃ a, x = .ok a ∧ f a = .ok b := by
  cases x with
  | error e => simp [bind, Except.bind]
  | ok a => simp [bind, Except.bind]

/-- What a computation may raise is of a kind. -/
def Except.Raises {ε α : Type u} (x : Except ε α) (P : ε → Prop) : Prop := ∀ e, x = .error e → P e

namespace Except.Raises

variable {ε α β : Type u} {P : ε → Prop}

lemma ok (a : α) : (.ok a : Except ε α).Raises P := fun _ h => nomatch h

lemma error {e : ε} (h : P e) : (.error e : Except ε α).Raises P := by
  rintro _ ⟨⟩
  exact h

lemma bind {x : Except ε α} {f : α → Except ε β} (hx : x.Raises P) (hf : ∀ a, (f a).Raises P) :
    (x >>= f).Raises P := by
  cases x with
  | error e => exact error (hx e rfl)
  | ok a => exact hf a

lemma map {x : Except ε α} (hx : x.Raises P) (f : α → β) : (x.map f).Raises P := by
  cases x with
  | error e => exact error (hx e rfl)
  | ok a => exact ok (f a)

lemma foldlM {f : α → β → Except ε α} (hf : ∀ a b, (f a b).Raises P) (l : List β) (a : α) :
    (l.foldlM f a).Raises P := by
  induction l generalizing a with
  | nil => exact ok a
  | cons b l ih =>
      rw [List.foldlM_cons]
      exact (hf a b).bind ih

end Except.Raises

/-- A program over the states `σ`; `none` when it has run out of fuel. -/
def Program (σ ε α : Type u) : Type u := σ → Option (Except ε α × σ)

namespace Program

variable {σ ε α β γ δ : Type u}

instance : Monad (Program σ ε) where
  pure a := fun s => some (.ok a, s)
  bind m f := fun s =>
    match m s with
    | none => none
    | some (.error e, t) => some (.error e, t)
    | some (.ok a, t) => f a t

instance : LawfulMonad (Program σ ε) :=
  LawfulMonad.mk' _
    (fun m => funext fun s => by
      simp only [Functor.map]
      cases m s with
      | none => rfl
      | some r =>
          obtain ⟨a | a, t⟩ := r <;> rfl)
    (fun a f => rfl)
    (fun m f g => funext fun s => by
      simp only [bind]
      cases m s with
      | none => rfl
      | some r =>
          obtain ⟨a | a, t⟩ := r <;> rfl)

/-- The value of a computation without effects, or its exception. -/
def lift (x : Except ε α) : Program σ ε α := fun s => some (x, s)

/-- A loop that has used up its fuel. -/
def outOfFuel : Program σ ε α := fun _ => none

/-- Run from `s`, the program returns `a` in state `t`. -/
def Returns (m : Program σ ε α) (s : σ) (a : α) (t : σ) : Prop := m s = some (.ok a, t)

lemma returns_unique {m : Program σ ε α} {s t t' : σ} {a a' : α} (h : Returns m s a t)
    (h' : Returns m s a' t') : a = a' ∧ t = t' := by
  have heq := Option.some.inj (h.symm.trans h')
  exact ⟨Except.ok.inj (Prod.mk.inj heq).1, (Prod.mk.inj heq).2⟩

@[simp] lemma returns_pure {s t : σ} {a b : α} :
    Returns (pure a : Program σ ε α) s b t ↔ a = b ∧ s = t := by
  constructor
  · intro h
    have heq := Prod.mk.inj (Option.some.inj h)
    exact ⟨Except.ok.inj heq.1, heq.2⟩
  · rintro ⟨rfl, rfl⟩
    rfl

@[simp] lemma returns_lift {x : Except ε α} {s t : σ} {a : α} :
    Returns (lift x : Program σ ε α) s a t ↔ x = .ok a ∧ s = t := by
  constructor
  · intro h
    exact Prod.mk.inj (Option.some.inj h)
  · rintro ⟨rfl, rfl⟩
    rfl

@[simp] lemma not_returns_outOfFuel {s t : σ} {a : α} :
    ¬ Returns (outOfFuel : Program σ ε α) s a t := by
  intro h
  cases h

/-- A sequence returns what its parts return one after the other. -/
lemma returns_bind {m : Program σ ε α} {f : α → Program σ ε β} {s u : σ} {b : β} :
    Returns (m >>= f) s b u ↔ ∃ a t, Returns m s a t ∧ Returns (f a) t b u := by
  constructor
  · intro h
    cases hm : m s with
    | none => simp [Returns, bind, hm] at h
    | some r =>
        obtain ⟨a | a, t⟩ := r
        · simp [Returns, bind, hm] at h
        · exact ⟨a, t, hm, by simpa [Returns, bind, hm] using h⟩
  · rintro ⟨a, t, hm, hf⟩
    have hm : m s = some (.ok a, t) := hm
    simpa [Returns, bind, hm] using hf

/-- A sequence goes on from what its first part returns. -/
lemma Returns.run_bind {m : Program σ ε α} {s t : σ} {a : α} (h : Returns m s a t)
    (f : α → Program σ ε β) : (m >>= f) s = f a t := by
  have hm : m s = some (.ok a, t) := h
  simp only [bind, hm]

@[simp] lemma lift_ok (a : α) : (lift (.ok a) : Program σ ε α) = pure a := rfl

lemma run_map (f : α → β) (m : Program σ ε α) (s : σ) :
    (f <$> m) s = (m s).map fun r => (r.1.map f, r.2) := by
  simp only [Functor.map]
  cases m s with
  | none => rfl
  | some r =>
      obtain ⟨a | a, t⟩ := r <;> rfl

/-- What a sequence ends with, its first part or its second part ends with. -/
lemma run_bind_eq_some {m : Program σ ε α} {f : α → Program σ ε β} {s u : σ} {r : Except ε β} :
    (m >>= f) s = some (r, u) ↔
      (∃ e, m s = some (.error e, u) ∧ r = .error e) ∨
        ∃ a t, m s = some (.ok a, t) ∧ f a t = some (r, u) := by
  cases hm : m s with
  | none => simp [bind, hm]
  | some p =>
      obtain ⟨e | a, t⟩ := p
      · simp [bind, hm, and_comm, eq_comm]
      · simp [bind, hm]

/-! ### Programs that end -/

/-- A sequence ends when its first part does, and its second part does after
what the first one returns. -/
lemma bind_ne_none {m : Program σ ε α} {f : α → Program σ ε β} {s : σ} (hm : m s ≠ none)
    (hf : ∀ a t, Returns m s a t → f a t ≠ none) : (m >>= f) s ≠ none := by
  cases hr : m s with
  | none => exact absurd hr hm
  | some r =>
      obtain ⟨e | a, t⟩ := r
      · simp [bind, hr]
      · have hreturns : Returns m s a t := hr
        rw [hreturns.run_bind]
        exact hf a t hreturns

/-- A sequence does not end when its first part does not. -/
lemma bind_eq_none {m : Program σ ε α} {s : σ} (hm : m s = none) (f : α → Program σ ε β) :
    (m >>= f) s = none := by
  simp only [bind, hm]

/-- A loop over a list ends when its body does for every item. -/
lemma foldlM_ne_none {f : α → β → Program σ ε α} {l : List β}
    (h : ∀ b ∈ l, ∀ a s, f a b s ≠ none) (a : α) (s : σ) : l.foldlM f a s ≠ none := by
  induction l generalizing a s with
  | nil => exact Option.some_ne_none _
  | cons b l ih =>
      rw [List.foldlM_cons]
      exact bind_ne_none (h b List.mem_cons_self a s) fun a t _ =>
        ih (fun b hb => h b (List.mem_cons_of_mem _ hb)) a t

/-! ### What a program leaves alone -/

/-- Whatever comes of the program, it leaves `g` of the state as it was. -/
def Keeps (g : σ → β) (m : Program σ ε α) : Prop := ∀ s r t, m s = some (r, t) → g t = g s

lemma Keeps.bind {g : σ → γ} {m : Program σ ε α} {f : α → Program σ ε β} (hm : Keeps g m)
    (hf : ∀ a, Keeps g (f a)) : Keeps g (m >>= f) := by
  intro s r u h
  rcases run_bind_eq_some.mp h with ⟨e, hm', -⟩ | ⟨a, t, hm', hf'⟩
  · exact hm s _ u hm'
  · exact (hf a t r u hf').trans (hm s _ t hm')

/-! ### Images -/

/-- The program `m` returns the images under `φ` of what `n` returns, in the
same states. -/
def IsImage (φ : β → α) (m : Program σ ε α) (n : Program σ ε β) : Prop :=
  ∀ s a t, Returns m s a t ↔ ∃ b, Returns n s b t ∧ a = φ b

lemma isImage_pure (φ : β → α) (b : β) :
    IsImage φ (pure (φ b) : Program σ ε α) (pure b : Program σ ε β) := by
  intro s a t
  simp only [returns_pure]
  constructor
  · rintro ⟨rfl, rfl⟩
    exact ⟨b, ⟨rfl, rfl⟩, rfl⟩
  · rintro ⟨b, ⟨rfl, rfl⟩, rfl⟩
    exact ⟨rfl, rfl⟩

lemma isImage_id (m : Program σ ε α) : IsImage id m m := by
  intro s a t
  constructor
  · intro h
    exact ⟨a, h, rfl⟩
  · rintro ⟨b, h, rfl⟩
    exact h

lemma IsImage.bind {φ : β → α} {ψ : δ → γ} {m : Program σ ε α} {n : Program σ ε β}
    {f : α → Program σ ε γ} {g : β → Program σ ε δ} (h : IsImage φ m n)
    (hfg : ∀ b, IsImage ψ (f (φ b)) (g b)) : IsImage ψ (m >>= f) (n >>= g) := by
  intro s c u
  simp only [returns_bind]
  constructor
  · rintro ⟨a, t, hm, hf⟩
    obtain ⟨b, hn, rfl⟩ := (h s a t).mp hm
    obtain ⟨d, hg, rfl⟩ := (hfg b t c u).mp hf
    exact ⟨d, ⟨b, t, hn, hg⟩, rfl⟩
  · rintro ⟨d, ⟨b, t, hn, hg⟩, rfl⟩
    exact ⟨φ b, t, (h s _ t).mpr ⟨b, hn, rfl⟩, (hfg b t _ u).mpr ⟨d, hg, rfl⟩⟩

/-- Two programs that begin alike. -/
lemma IsImage.bind_right {ψ : δ → γ} (m : Program σ ε α) {f : α → Program σ ε γ}
    {g : α → Program σ ε δ} (h : ∀ a, IsImage ψ (f a) (g a)) :
    IsImage ψ (m >>= f) (m >>= g) :=
  (isImage_id m).bind h

/-- Two loops whose bodies are images. -/
lemma IsImage.foldlM {φ : β → α} {f : α → γ → Program σ ε α} {g : β → γ → Program σ ε β}
    {l : List γ} (h : ∀ c ∈ l, ∀ b, IsImage φ (f (φ b) c) (g b c)) (b : β) :
    IsImage φ (l.foldlM f (φ b)) (l.foldlM g b) := by
  induction l generalizing b with
  | nil => exact isImage_pure φ b
  | cons c l ih =>
      rw [List.foldlM_cons, List.foldlM_cons]
      exact (h c List.mem_cons_self b).bind fun b =>
        ih (fun c hc => h c (List.mem_cons_of_mem _ hc)) b

/-! ### Results -/

/-- The programs return the same value, raise the same exception, or have both run out
of fuel, whatever the states are. A program that does so with itself does not read the
state. -/
def SameResults (m n : Program σ ε α) : Prop := ∀ s t, (m s).map Prod.fst = (n t).map Prod.fst

lemma sameResults_pure (a : α) : SameResults (pure a : Program σ ε α) (pure a) := fun _ _ => rfl

lemma sameResults_lift (x : Except ε α) : SameResults (lift x : Program σ ε α) (lift x) :=
  fun _ _ => rfl

lemma sameResults_outOfFuel : SameResults (outOfFuel : Program σ ε α) outOfFuel := fun _ _ => rfl

lemma SameResults.bind {m n : Program σ ε α} {f g : α → Program σ ε β} (h : SameResults m n)
    (hfg : ∀ a, SameResults (f a) (g a)) : SameResults (m >>= f) (n >>= g) := by
  intro s t
  have hst := h s t
  simp only [Bind.bind]
  rcases hm : m s with _ | ⟨e | a, s'⟩ <;> rcases hn : n t with _ | ⟨e' | a', t'⟩ <;>
    simp only [hm, hn, Option.map_none, Option.map_some, Option.some.injEq, reduceCtorEq,
      Except.error.injEq, Except.ok.injEq] at hst ⊢
  · exact hst
  · obtain rfl := hst
    exact hfg a s' t'

lemma SameResults.foldlM {f g : α → β → Program σ ε α} {l : List β}
    (h : ∀ b ∈ l, ∀ a, SameResults (f a b) (g a b)) (a : α) :
    SameResults (l.foldlM f a) (l.foldlM g a) := by
  induction l generalizing a with
  | nil => exact sameResults_pure a
  | cons b l ih =>
      rw [List.foldlM_cons, List.foldlM_cons]
      exact (h b List.mem_cons_self a).bind fun a =>
        ih (fun b hb => h b (List.mem_cons_of_mem _ hb)) a

/-! ### Loops that accumulate -/

/-- The program only appends to the list it is given. -/
def Accumulates (f : List α → Program σ ε (List α)) : Prop :=
  ∀ pre total, IsImage (pre ++ ·) (f (pre ++ total)) (f total)

/-- A loop over programs that accumulate accumulates. -/
lemma Accumulates.foldlM {f : List α → β → Program σ ε (List α)} {l : List β}
    (h : ∀ b ∈ l, Accumulates fun total => f total b) :
    Accumulates fun total => l.foldlM f total :=
  fun pre total => IsImage.foldlM (fun b hb total => h b hb pre total) total

/-- A loop whose body returns and appends `g a` for every item `a` returns, and
appends all of them in order. -/
lemma exists_returns_foldlM {f : List β → α → Program σ ε (List β)} {g : α → List β}
    {l : List α} (h : ∀ a ∈ l, ∀ total s, ∃ t, Returns (f total a) s (total ++ g a) t)
    (total : List β) (s : σ) : ∃ t, Returns (l.foldlM f total) s (total ++ l.flatMap g) t := by
  induction l generalizing total s with
  | nil => exact ⟨s, by simp⟩
  | cons a l ih =>
      obtain ⟨u, hu⟩ := h a List.mem_cons_self total s
      obtain ⟨t, ht⟩ := ih (fun a ha => h a (List.mem_cons_of_mem _ ha)) (total ++ g a) u
      refine ⟨t, ?_⟩
      rw [List.foldlM_cons, returns_bind]
      exact ⟨_, u, hu, by simpa using ht⟩

/-- A loop whose body returns for every item returns. -/
lemma exists_returns_foldlM_of_forall {f : α → β → Program σ ε α} {l : List β}
    (h : ∀ b ∈ l, ∀ a s, ∃ a' t, Returns (f a b) s a' t) (a : α) (s : σ) :
    ∃ a' t, Returns (l.foldlM f a) s a' t := by
  induction l generalizing a s with
  | nil => exact ⟨a, s, returns_pure.mpr ⟨rfl, rfl⟩⟩
  | cons b l ih =>
      obtain ⟨a₁, s₁, hb⟩ := h b List.mem_cons_self a s
      obtain ⟨a₂, s₂, hl⟩ := ih (fun b hb => h b (List.mem_cons_of_mem _ hb)) a₁ s₁
      rw [List.foldlM_cons]
      exact ⟨a₂, s₂, returns_bind.mpr ⟨a₁, s₁, hb, hl⟩⟩

/-- What a loop that accumulates returns, part by part: `B` relates the states before and
after the body to what it appends, and `le` orders the states. -/
lemma exists_parts_of_foldlM {le : σ → σ → Prop} {B : σ → β → List α → σ → Prop}
    {f : List α → β → Program σ ε (List α)} {l : List β} (hrefl : ∀ s, le s s)
    (htrans : ∀ s t u, le s t → le t u → le s u)
    (h : ∀ b ∈ l, ∀ total s r t, Returns (f total b) s r t →
      ∃ part, r = total ++ part ∧ B s b part t ∧ le s t) {total r : List α} {s t : σ}
    (hr : Returns (l.foldlM f total) s r t) :
    le s t ∧ ∃ parts : List (List α), r = total ++ parts.flatten ∧
      List.Forall₂ (fun b part => ∃ s' t', le s s' ∧ le t' t ∧ B s' b part t') l parts := by
  induction l generalizing total s with
  | nil =>
      obtain ⟨rfl, rfl⟩ := returns_pure.mp hr
      exact ⟨hrefl s, [], by simp, .nil⟩
  | cons b l ih =>
      rw [List.foldlM_cons, returns_bind] at hr
      obtain ⟨total', u, hb, hl⟩ := hr
      obtain ⟨part, rfl, hB, hsu⟩ := h b List.mem_cons_self total s total' u hb
      obtain ⟨hut, parts, rfl, hparts⟩ := ih (fun b hb => h b (List.mem_cons_of_mem _ hb)) hl
      refine ⟨htrans s u t hsu hut, part :: parts, by simp, .cons ⟨s, u, hrefl s, hut, hB⟩ ?_⟩
      exact hparts.imp fun b part ⟨s', t', hus, htt, hB'⟩ =>
        ⟨s', t', htrans s u s' hsu hus, htt, hB'⟩

end Program
