/-
Deadlock freedom by lock ordering.

Each transaction waits for at most one resource; an edge `t → u` of the
waits-for relation means that `u` holds the resource `t` asks for, or that `u`
asks for the same resource and stands before `t` in its queue.

* `Ordered`: the resources carry an order, and a transaction only asks for a
  resource above every resource it holds;
* `Ordered.acyclic`: then the waits-for relation has no cycle, whatever the
  modes of the locks and however many transactions there are;
* `Acyclic.exists_sink`: an acyclic relation on finitely many transactions has
  one that waits for none of them.
-/
import Mathlib.Tactic
import Mathlib.Logic.Relation
import Mathlib.Order.WellFounded
import Mathlib.Data.Finite.Defs
import Mathlib.Data.Prod.Lex
import Mathlib.Order.WithBot

namespace WaitsFor

variable {T R κ : Type*}

/-- A relation without cycles. -/
def Acyclic (w : T → T → Prop) : Prop := ∀ t, ¬ Relation.TransGen w t t

/-- A relation along which a rank increases strictly has no cycle. -/
lemma acyclic_of_rank [Preorder κ] {w : T → T → Prop} (rank : T → κ)
    (h : ∀ t u, w t u → rank t < rank u) : Acyclic w := by
  have hlt : ∀ {t u}, Relation.TransGen w t u → rank t < rank u := by
    intro t u htu
    induction htu with
    | single hw => exact h _ _ hw
    | tail _ hw ih => exact ih.trans (h _ _ hw)
  exact fun t ht => lt_irrefl _ (hlt ht)

/-- In an acyclic relation, any nonempty finite set of transactions has one
that waits for no other of them. -/
theorem Acyclic.exists_sink {w : T → T → Prop} (h : Acyclic w) {S : Set T} (hfin : S.Finite)
    (hne : S.Nonempty) : ∃ t ∈ S, ∀ u ∈ S, ¬ w t u := by
  have : Finite S := hfin
  -- the reversed closure is a strict order on a finite set, so it is well founded
  let r : S → S → Prop := fun a b => Relation.TransGen w b a
  have hirr : Std.Irrefl r := ⟨fun a ha => h _ ha⟩
  have htr : IsTrans S r := ⟨fun a b c hab hbc => hbc.trans hab⟩
  obtain ⟨t, -, ht⟩ := (Finite.wellFounded_of_trans_of_irrefl r).has_min Set.univ
    ⟨⟨hne.some, hne.some_mem⟩, trivial⟩
  exact ⟨t, t.2, fun u hu hw => ht ⟨u, hu⟩ trivial (.single hw)⟩

/-- The lock discipline: `holds t r` is a lock held, `asks t` the resource a
transaction waits for, `place t` its place in the queue of that resource. A
transaction asks only for resources above all those it holds. -/
structure Ordered [LinearOrder κ] (holds : T → R → Prop) (asks : T → Option R) (rank : R → κ) :
    Prop where
  above : ∀ t r r', asks t = some r → holds t r' → rank r' < rank r

/-- The edges a lock manager can have: to a holder of the resource asked for,
or to a transaction that asks for the same resource and came earlier. -/
def Edge (holds : T → R → Prop) (asks : T → Option R) (place : T → ℕ) (t u : T) : Prop :=
  ∃ r, asks t = some r ∧ (holds u r ∨ (asks u = some r ∧ place u < place t))

/-- **Lock ordering excludes deadlock**: when every transaction asks only for
resources above those it holds, the waits-for relation has no cycle. -/
theorem Ordered.acyclic [LinearOrder κ] {holds : T → R → Prop} {asks : T → Option R}
    {rank : R → κ} (h : Ordered holds asks rank) (place : T → ℕ) :
    Acyclic (Edge holds asks place) := by
  -- first the resource asked for (`⊤` when running), then the place in its queue
  let level : T → WithTop κ := fun t => (asks t).elim ⊤ (fun r => (rank r : WithTop κ))
  refine acyclic_of_rank (κ := WithTop κ ×ₗ ℕᵒᵈ)
    (fun t => toLex (level t, OrderDual.toDual (place t))) ?_
  rintro t u ⟨r, htr, hur | ⟨hur, hplace⟩⟩
  · refine Prod.Lex.toLex_lt_toLex.mpr (.inl ?_)
    show (asks t).elim ⊤ _ < (asks u).elim ⊤ _
    rw [htr]
    cases hu : asks u with
    | none => exact WithTop.coe_lt_top _
    | some r' => exact WithTop.coe_lt_coe.mpr (h.above u r' r hu hur)
  · refine Prod.Lex.toLex_lt_toLex.mpr (.inr ⟨?_, OrderDual.toDual_lt_toDual.mpr hplace⟩)
    show (asks t).elim ⊤ _ = (asks u).elim ⊤ _
    rw [htr, hur]

end WaitsFor
