/-
Facts about lists of rows: keys under appends, lists related entry by entry,
window functions and `ORDER BY`.

* `firstRows key id rows`: one row for each key, the one with the least id;
  every key has its row (`exists_firstRows`), and only one
  (`nodup_firstRows`);
* `OrderBy key rows ordered`: an answer of a query ordered by a key, rows of
  equal keys coming in any order; `OrderBy.eq` when the keys are distinct, and
  `OrderBy.map_iff` when only some columns are read.
-/
import Mathlib.Tactic
import Mathlib.Data.List.Forall2
import Mathlib.Data.List.Nodup
import Mathlib.Data.List.Sort

namespace Rows

variable {α β : Type*}

/-- Appending rows with new keys keeps the keys distinct. -/
lemma nodup_map_append {f : α → β} {l l' : List α} (h : (l.map f).Nodup)
    (h' : (l'.map f).Nodup) (hnew : ∀ b ∈ l', ∀ a ∈ l, f a ≠ f b) :
    ((l ++ l').map f).Nodup := by
  rw [List.map_append]
  refine List.nodup_append.mpr ⟨h, h', ?_⟩
  intro x hx y hy
  obtain ⟨a, ha, rfl⟩ := List.mem_map.mp hx
  obtain ⟨b, hb, rfl⟩ := List.mem_map.mp hy
  exact hnew b hb a ha

/-- Every entry on the right has its partner on the left. -/
lemma exists_of_forall₂_mem_right {R : α → β → Prop} {l : List α} {l' : List β}
    (h : List.Forall₂ R l l') {b : β} (hb : b ∈ l') : ∃ a ∈ l, R a b := by
  induction h with
  | nil => simp at hb
  | cons hab _ ih =>
      rcases List.mem_cons.mp hb with rfl | hb
      · exact ⟨_, List.mem_cons_self, hab⟩
      · obtain ⟨a, ha, hR⟩ := ih hb
        exact ⟨a, List.mem_cons_of_mem _ ha, hR⟩

/-- A relation that comes down to a property of the entries on the left. -/
lemma forall₂_iff_of_left {R S : α → β → Prop} {P : α → Prop} {l : List α} {l' : List β}
    (h : List.Forall₂ R l l') (hiff : ∀ a b, R a b → (S a b ↔ P a)) :
    List.Forall₂ S l l' ↔ ∀ a ∈ l, P a := by
  induction h with
  | nil => simp
  | cons hab _ ih => rw [List.forall₂_cons, List.forall_mem_cons, hiff _ _ hab, ih]

/-- A relation entry by entry may be weakened on the entries of the right. -/
lemma forall₂_imp_right {R S : α → β → Prop} {l : List α} {l' : List β}
    (h : List.Forall₂ R l l') (himp : ∀ a, ∀ b ∈ l', R a b → S a b) : List.Forall₂ S l l' := by
  induction h with
  | nil => exact .nil
  | cons hab _ ih =>
      exact .cons (himp _ _ List.mem_cons_self hab)
        (ih fun a b hb => himp a b (List.mem_cons_of_mem _ hb))

/-- A row with a given key is unique when the keys are distinct. -/
lemma eq_of_key_eq {f : α → β} {l : List α} (h : (l.map f).Nodup) {a b : α} (ha : a ∈ l)
    (hb : b ∈ l) (hab : f a = f b) : a = b :=
  List.inj_on_of_nodup_map h ha hb hab

/-- With distinct keys, the rows of a given key are the one row there is. -/
lemma filter_key_eq [DecidableEq β] {f : α → β} {l : List α} (h : (l.map f).Nodup) {a : α}
    (ha : a ∈ l) : l.filter (fun b => f b = f a) = [a] := by
  induction l with
  | nil => simp at ha
  | cons b l ih =>
      obtain ⟨hb, hl⟩ := List.nodup_cons.mp h
      rcases List.mem_cons.mp ha with rfl | ha
      · rw [List.filter_cons_of_pos (by simp), List.filter_eq_nil_iff.mpr]
        exact fun c hc => by simpa using fun heq : f c = f a => hb (heq ▸ List.mem_map_of_mem hc)
      · have hne : f b ≠ f a := fun heq => hb (heq ▸ List.mem_map_of_mem ha)
        rw [List.filter_cons_of_neg (by simpa using hne), ih hl ha]

/-- Taking out rows with given keys takes out as many rows as there are keys. -/
lemma length_filter_add [DecidableEq β] {f : α → β} {l : List α} (h : (l.map f).Nodup)
    {ids : List β} (hids : ids.Nodup) (hsub : ids ⊆ l.map f) :
    (l.filter fun a => f a ∉ ids).length + ids.length = l.length := by
  have hperm : ((l.filter fun a => f a ∈ ids).map f).Perm ids := by
    refine (List.perm_ext_iff_of_nodup (h.sublist (List.filter_sublist.map f)) hids).mpr fun b => ?_
    constructor
    · intro hb
      obtain ⟨a, ha, rfl⟩ := List.mem_map.mp hb
      simpa using (List.mem_filter.mp ha).2
    · intro hb
      obtain ⟨a, ha, rfl⟩ := List.mem_map.mp (hsub hb)
      exact List.mem_map.mpr ⟨a, List.mem_filter.mpr ⟨ha, by simpa using hb⟩, rfl⟩
  have hlen := hperm.length_eq
  rw [List.length_map] at hlen
  have hsplit := List.length_eq_length_filter_add (l := l) fun a => decide (f a ∈ ids)
  simp only [← decide_not] at hsplit
  omega

/-- A sum over a list, grouped by a key. -/
lemma sum_map_eq_sum_filter {κ : Type*} [DecidableEq κ] (key : α → κ) (f : α → ℕ) (l : List α)
    (K : Finset κ) (hK : ∀ a ∈ l, key a ∈ K) :
    (l.map f).sum = ∑ k ∈ K, ((l.filter fun a => key a = k).map f).sum := by
  induction l with
  | nil => simp
  | cons a l ih =>
      have hterm : ∀ k, (((a :: l).filter fun a => key a = k).map f).sum =
          (if key a = k then f a else 0) + ((l.filter fun a => key a = k).map f).sum := by
        intro k
        by_cases hk : key a = k <;> simp [hk]
      simp only [hterm, Finset.sum_add_distrib, Finset.sum_ite_eq, hK a List.mem_cons_self, if_true,
        List.map_cons, List.sum_cons]
      rw [ih fun b hb => hK b (List.mem_cons_of_mem a hb)]

lemma sum_filterMap (f : α → Option ℕ) (l : List α) :
    (l.filterMap f).sum = (l.map fun a => (f a).getD 0).sum := by
  induction l with
  | nil => rfl
  | cons a l ih => cases ha : f a <;> simp [ha, ih]

/-- Two sums over a list are equal when they are for each key. -/
lemma sum_map_eq_of_key {κ : Type*} [DecidableEq κ] (key : α → κ) {f g : α → ℕ} {l : List α}
    (h : ∀ k, ((l.filter fun a => key a = k).map f).sum =
      ((l.filter fun a => key a = k).map g).sum) : (l.map f).sum = (l.map g).sum := by
  have hK : ∀ a ∈ l, key a ∈ (l.map key).toFinset := fun a ha =>
    List.mem_toFinset.mpr (List.mem_map_of_mem ha)
  rw [sum_map_eq_sum_filter key f l _ hK, sum_map_eq_sum_filter key g l _ hK]
  exact Finset.sum_congr rfl fun k _ => h k

/-! ### Folds that may raise -/

lemma foldlM_cons_of_ok {ε α β : Type*} {f : β → α → Except ε β} {b b' : β} {a : α}
    (h : f b a = .ok b') (l : List α) : (a :: l).foldlM f b = l.foldlM f b' := by
  rw [List.foldlM_cons, h]
  rfl

lemma foldlM_append_of_ok {ε α β : Type*} {f : β → α → Except ε β} {b b' : β} {l : List α}
    (h : l.foldlM f b = .ok b') (l' : List α) : (l ++ l').foldlM f b = l'.foldlM f b' := by
  rw [List.foldlM_append, h]
  rfl

/-- A fold over entries that leave the state alone. -/
lemma foldlM_eq_self {ε α β : Type*} {f : β → α → Except ε β} {b : β} {l : List α}
    (h : ∀ a ∈ l, f b a = .ok b) : l.foldlM f b = .ok b := by
  induction l with
  | nil => rfl
  | cons a l ih =>
      rw [foldlM_cons_of_ok (h a List.mem_cons_self)]
      exact ih fun a ha => h a (List.mem_cons_of_mem _ ha)

/-- A map that never raises on the entries it gets. -/
lemma exists_mapM_of_forall₂ {ε α β γ : Type} {R : α → β → Prop} {S : α → γ → Prop}
    {f : β → Except ε γ} {l : List α} {l' : List β} (h : List.Forall₂ R l l')
    (hf : ∀ a b, R a b → ∃ c, f b = .ok c ∧ S a c) :
    ∃ l'', l'.mapM f = .ok l'' ∧ List.Forall₂ S l l'' := by
  induction h with
  | nil => exact ⟨[], rfl, .nil⟩
  | cons hab _ ih =>
      obtain ⟨c, hc, hS⟩ := hf _ _ hab
      obtain ⟨l'', hl'', hall⟩ := ih
      refine ⟨c :: l'', ?_, .cons hS hall⟩
      rw [List.mapM_cons, hc, hl'']
      rfl

/-! ### Window functions -/

section Window

variable {κ : Type*} [DecidableEq κ] {key : α → κ} {id : α → ℕ} {rows : List α} {a b : α}

/-- `row_number() OVER (PARTITION BY key ORDER BY id)`, for distinct ids. -/
def rowNumber (key : α → κ) (id : α → ℕ) (rows : List α) (a : α) : ℕ :=
  (rows.filter fun b => key b = key a ∧ id b < id a).length + 1

/-- The rows number one of their partitions. -/
def firstRows (key : α → κ) (id : α → ℕ) (rows : List α) : List α :=
  rows.filter fun a => rowNumber key id rows a = 1

/-- The first row of a partition has the least id in it. -/
lemma mem_firstRows :
    a ∈ firstRows key id rows ↔ a ∈ rows ∧ ∀ b ∈ rows, key b = key a → id a ≤ id b := by
  simp [firstRows, rowNumber, List.filter_eq_nil_iff]

/-- Every partition has a first row. -/
lemma exists_firstRows (key : α → κ) (id : α → ℕ) (ha : a ∈ rows) :
    ∃ b ∈ firstRows key id rows, key b = key a := by
  induction h : id a using Nat.strong_induction_on generalizing a with
  | _ n ih =>
      by_cases hfirst : ∀ b ∈ rows, key b = key a → id a ≤ id b
      · exact ⟨a, mem_firstRows.mpr ⟨ha, hfirst⟩, rfl⟩
      · push Not at hfirst
        obtain ⟨b, hb, hkey, hlt⟩ := hfirst
        obtain ⟨c, hc, hck⟩ := ih (id b) (h ▸ hlt) hb rfl
        exact ⟨c, hc, hck.trans hkey⟩

/-- With distinct ids, every partition has only one first row. -/
lemma nodup_firstRows (h : (rows.map id).Nodup) : ((firstRows key id rows).map key).Nodup := by
  refine List.Nodup.map_on (fun a ha b hb hkey => ?_) (h.of_map.filter _)
  obtain ⟨ha, ha'⟩ := mem_firstRows.mp ha
  obtain ⟨hb, hb'⟩ := mem_firstRows.mp hb
  exact eq_of_key_eq h ha hb (le_antisymm (ha' b hb hkey.symm) (hb' a ha hkey))

end Window

/-! ### Ordered answers -/

/-- An answer to a query `ORDER BY key`. -/
structure OrderBy {κ : Type*} [LinearOrder κ] (key : α → κ) (rows ordered : List α) : Prop where
  perm : ordered.Perm rows
  sorted : ordered.Pairwise fun a b => key a ≤ key b

namespace OrderBy

variable {κ : Type*} [LinearOrder κ] {key : α → κ} {rows ordered ordered' : List α}

/-- There always is an ordered answer. -/
lemma exists_orderBy (key : α → κ) (rows : List α) : ∃ ordered, OrderBy key rows ordered := by
  have htot : Std.Total fun a b : α => key a ≤ key b := ⟨fun a b => le_total (key a) (key b)⟩
  have htr : IsTrans α fun a b => key a ≤ key b := ⟨fun a b c => le_trans⟩
  exact ⟨rows.insertionSort fun a b => key a ≤ key b, List.perm_insertionSort _ _,
    List.pairwise_insertionSort _ _⟩

/-- The columns of an ordered answer. -/
lemma map {f : α → β} {key : β → κ} (h : OrderBy (fun a => key (f a)) rows ordered) :
    OrderBy key (rows.map f) (ordered.map f) :=
  ⟨h.perm.map f, List.pairwise_map.mpr h.sorted⟩

/-- The ordered answers of the columns are the columns of the ordered answers. -/
lemma map_iff {f : α → β} {key : β → κ} {ordered : List β} :
    OrderBy key (rows.map f) ordered ↔
      ∃ ordered', OrderBy (fun a => key (f a)) rows ordered' ∧ ordered'.map f = ordered := by
  constructor
  · intro h
    have hcols : List.Forall₂ (fun b a => b = f a) (rows.map f) rows := by
      rw [List.forall₂_map_left_iff]
      exact List.forall₂_same.mpr fun a _ => rfl
    obtain ⟨ordered', hmap, hperm⟩ := List.perm_comp_forall₂ h.perm hcols
    obtain rfl : ordered = ordered'.map f := by
      rw [← List.forall₂_eq_eq_eq, List.forall₂_map_right_iff]
      exact hmap
    have hsorted := h.sorted
    rw [List.pairwise_map] at hsorted
    exact ⟨ordered', ⟨hperm, hsorted⟩, rfl⟩
  · rintro ⟨ordered', h, rfl⟩
    exact h.map

/-- Distinct keys leave one ordered answer. -/
lemma eq (hnodup : (rows.map key).Nodup) (h : OrderBy key rows ordered)
    (h' : OrderBy key rows ordered') : ordered = ordered' := by
  refine (h.perm.trans h'.perm.symm).eq_of_pairwise (fun a b ha hb hab hba => ?_) h.sorted h'.sorted
  exact eq_of_key_eq hnodup (h.perm.mem_iff.mp ha) (h'.perm.mem_iff.mp hb) (le_antisymm hab hba)

end OrderBy

end Rows
