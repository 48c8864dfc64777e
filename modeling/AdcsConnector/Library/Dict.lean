/-
Python dictionaries as lists of items in insertion order.

* `Dict.insert`, `Dict.ofPairs`: assignment keeps the place of a key that is
  there already and takes the new value, so `dict(pairs)` has each key once, at
  its first occurrence, with its last value;
* `Dict.get?`: the lookup `d[k]`, `none` standing for a `KeyError`;
* `Dict.mapValues`: the values mapped, which commutes with the operations;
* `Dict.sortedItems`: `sorted(d.items())` when the keys are distinct, the
  values then never being compared: `sortedItems_pairwise` gives strictly
  ascending keys.
-/
import Mathlib.Tactic
import Mathlib.Data.List.Sort
import Mathlib.Data.List.Nodup

namespace Dict

variable {K V : Type*} [DecidableEq K]

/-- `d[k] = v`: the value of a present key is replaced in place, a new key is
appended. -/
def insert : List (K × V) → K → V → List (K × V)
  | [], k, v => [(k, v)]
  | p :: d, k, v => if p.1 = k then (k, v) :: d else p :: insert d k v

/-- `dict(pairs)`. -/
def ofPairs (pairs : List (K × V)) : List (K × V) :=
  pairs.foldl (fun d p => insert d p.1 p.2) []

/-- `d.keys()`. -/
def keys (d : List (K × V)) : List K := d.map Prod.fst

/-- `d[k]`, with `none` for a `KeyError`. -/
def get? (d : List (K × V)) (k : K) : Option V := (d.find? fun p => p.1 = k).map Prod.snd

lemma mem_keys_insert {d : List (K × V)} {k k' : K} {v : V} :
    k' ∈ keys (insert d k v) ↔ k' = k ∨ k' ∈ keys d := by
  induction d with
  | nil => simp [insert, keys]
  | cons p d ih =>
      simp only [keys] at ih
      by_cases hp : p.1 = k
      · rw [insert, if_pos hp]
        simp only [keys, List.map_cons, List.mem_cons, hp]
        tauto
      · rw [insert, if_neg hp]
        simp only [keys, List.map_cons, List.mem_cons, ih]
        tauto

lemma nodup_keys_insert {d : List (K × V)} (h : (keys d).Nodup) (k : K) (v : V) :
    (keys (insert d k v)).Nodup := by
  induction d with
  | nil => simp [insert, keys]
  | cons p d ih =>
      obtain ⟨hp, hd⟩ := List.nodup_cons.mp h
      by_cases hk : p.1 = k
      · rw [insert, if_pos hk]
        exact List.nodup_cons.mpr ⟨hk ▸ hp, hd⟩
      · rw [insert, if_neg hk]
        refine List.nodup_cons.mpr ⟨fun hmem => ?_, ih hd⟩
        rcases mem_keys_insert.mp hmem with hpk | hpd
        · exact hk hpk
        · exact hp hpd

lemma mem_insert {d : List (K × V)} {k : K} {v : V} {p : K × V} (h : p ∈ insert d k v) :
    p = (k, v) ∨ p ∈ d := by
  induction d with
  | nil => simpa [insert] using h
  | cons q d ih =>
      by_cases hq : q.1 = k
      · rw [insert, if_pos hq, List.mem_cons] at h
        exact h.imp_right (List.mem_cons_of_mem q)
      · rw [insert, if_neg hq, List.mem_cons] at h
        rcases h with rfl | h
        · exact .inr (by simp)
        · exact (ih h).imp_right (List.mem_cons_of_mem q)

/-- The three facts about a dictionary built by assignments, over any start. -/
private lemma foldl_insert (pairs d : List (K × V)) :
    let e := pairs.foldl (fun d p => insert d p.1 p.2) d
    ((keys d).Nodup → (keys e).Nodup) ∧
      (∀ k, k ∈ keys e ↔ k ∈ keys d ∨ k ∈ keys pairs) ∧
      ∀ p ∈ e, p ∈ d ∨ p ∈ pairs := by
  induction pairs generalizing d with
  | nil => exact ⟨id, by simp [keys], by simp⟩
  | cons q pairs ih =>
      obtain ⟨hnodup, hkeys, hmem⟩ := ih (insert d q.1 q.2)
      refine ⟨fun hd => hnodup (nodup_keys_insert hd _ _), fun k => ?_, fun p hp => ?_⟩
      · rw [List.foldl_cons, hkeys, mem_keys_insert]
        simp only [keys, List.map_cons, List.mem_cons]
        tauto
      · rcases hmem p hp with h | h
        · rcases mem_insert h with rfl | h
          · exact .inr (by simp)
          · exact .inl h
        · exact .inr (List.mem_cons_of_mem q h)

/-- A dictionary has each key once. -/
lemma nodup_keys_ofPairs (pairs : List (K × V)) : (keys (ofPairs pairs)).Nodup :=
  (foldl_insert pairs []).1 (by simp [keys])

/-- The keys of `dict(pairs)` are the first components. -/
lemma mem_keys_ofPairs {pairs : List (K × V)} {k : K} :
    k ∈ keys (ofPairs pairs) ↔ k ∈ keys pairs :=
  ((foldl_insert pairs []).2.1 k).trans (or_iff_right (by simp [keys]))

/-- Every item of `dict(pairs)` is one of the pairs. -/
lemma mem_of_mem_ofPairs {pairs : List (K × V)} {p : K × V} (h : p ∈ ofPairs pairs) :
    p ∈ pairs := by
  simpa using (foldl_insert pairs []).2.2 p h

lemma get?_cons (p : K × V) (d : List (K × V)) (k : K) :
    get? (p :: d) k = if p.1 = k then some p.2 else get? d k := by
  by_cases h : p.1 = k <;> simp [get?, h]

/-- `d[k] = v` is what `d[k]` reads afterwards; no other key is touched. -/
lemma get?_insert (d : List (K × V)) (k k' : K) (v : V) :
    get? (insert d k v) k' = if k = k' then some v else get? d k' := by
  induction d with
  | nil => rw [insert, get?_cons]
  | cons p d ih =>
      rw [insert]
      by_cases hp : p.1 = k
      · rw [if_pos hp, get?_cons, get?_cons, hp]
        split_ifs <;> rfl
      · rw [if_neg hp, get?_cons, get?_cons, ih]
        split_ifs with h h'
        · exact absurd (h.trans h'.symm) hp
        · rfl
        · rfl
        · rfl

/-- `dict(pairs)` reads the last pair of a key. -/
lemma get?_ofPairs (pairs : List (K × V)) (k : K) :
    get? (ofPairs pairs) k = (pairs.filter fun p => p.1 = k).getLast?.map Prod.snd := by
  induction pairs using List.reverseRecOn with
  | nil => rfl
  | append_singleton pairs p ih =>
      rw [ofPairs, List.foldl_append, ← ofPairs, List.foldl_cons, List.foldl_nil, get?_insert, ih,
        List.filter_append]
      split_ifs with h
      · simp [h]
      · simp [h]

/-- The values of a dictionary mapped, the keys left alone. -/
def mapValues {W : Type*} (f : V → W) (d : List (K × V)) : List (K × W) :=
  d.map fun p => (p.1, f p.2)

lemma mapValues_insert {W : Type*} (f : V → W) (d : List (K × V)) (k : K) (v : V) :
    mapValues f (insert d k v) = insert (mapValues f d) k (f v) := by
  induction d with
  | nil => rfl
  | cons p d ih =>
      simp only [mapValues] at ih
      by_cases hp : p.1 = k
      · simp [mapValues, insert, hp]
      · simp [mapValues, insert, hp, ih]

/-- Mapping the values commutes with building the dictionary. -/
lemma mapValues_ofPairs {W : Type*} (f : V → W) (pairs : List (K × V)) :
    mapValues f (ofPairs pairs) = ofPairs (mapValues f pairs) := by
  have hfold : ∀ d, mapValues f (pairs.foldl (fun d p => insert d p.1 p.2) d) =
      (mapValues f pairs).foldl (fun d p => insert d p.1 p.2) (mapValues f d) := by
    induction pairs with
    | nil => exact fun d => rfl
    | cons p pairs ih =>
        intro d
        rw [List.foldl_cons, ih, mapValues_insert]
        rfl
  exact hfold []

omit [DecidableEq K] in
lemma keys_mapValues {W : Type*} (f : V → W) (d : List (K × V)) :
    keys (mapValues f d) = keys d := by
  simp [keys, mapValues]

/-- A key of `d` is found, with a value it is paired with. -/
lemma get?_of_mem_keys {d : List (K × V)} {k : K} (h : k ∈ keys d) :
    ∃ v, get? d k = some v ∧ (k, v) ∈ d := by
  induction d with
  | nil => simp [keys] at h
  | cons p d ih =>
      by_cases hp : p.1 = k
      · exact ⟨p.2, by simp [get?, hp], by simp [← hp]⟩
      · have hk : k ∈ keys d := by
          have := List.mem_cons.mp h
          exact this.resolve_left fun heq => hp heq.symm
        obtain ⟨v, hv, hmem⟩ := ih hk
        refine ⟨v, ?_, List.mem_cons_of_mem p hmem⟩
        rw [← hv, get?, get?, List.find?_cons_of_neg (by simpa using hp)]

/-- A value found under a key is paired with it. -/
lemma mem_of_get? {d : List (K × V)} {k : K} {v : V} (h : get? d k = some v) : (k, v) ∈ d := by
  obtain ⟨p, hp, rfl⟩ := Option.map_eq_some_iff.mp h
  obtain rfl : p.1 = k := by simpa using List.find?_some hp
  exact List.mem_of_find?_eq_some hp

/-- `sorted(d.items())` for a dictionary `d`. -/
def sortedItems [LinearOrder K] (d : List (K × V)) : List (K × V) :=
  d.insertionSort fun p q => p.1 ≤ q.1

omit [DecidableEq K] in
lemma sortedItems_perm [LinearOrder K] (d : List (K × V)) : (sortedItems d).Perm d :=
  List.perm_insertionSort _ d

omit [DecidableEq K] in
/-- The sort compares the keys only. -/
lemma mapValues_sortedItems [LinearOrder K] {W : Type*} (f : V → W) (d : List (K × V)) :
    mapValues f (sortedItems d) = sortedItems (mapValues f d) :=
  List.map_insertionSort _ _ (fun p : K × V => (p.1, f p.2)) d fun _ _ _ _ => Iff.rfl

omit [DecidableEq K] in
/-- Sorted items of a dictionary have strictly ascending keys. -/
lemma sortedItems_pairwise [LinearOrder K] {d : List (K × V)} (h : (keys d).Nodup) :
    (sortedItems d).Pairwise fun p q => p.1 < q.1 := by
  have htot : Std.Total fun p q : K × V => p.1 ≤ q.1 := ⟨fun p q => le_total p.1 q.1⟩
  have htr : IsTrans (K × V) fun p q => p.1 ≤ q.1 := ⟨fun p q r => le_trans⟩
  have hle : (sortedItems d).Pairwise fun p q => p.1 ≤ q.1 := List.pairwise_insertionSort _ d
  have hne : (sortedItems d).Pairwise fun p q => p.1 ≠ q.1 :=
    List.pairwise_map.mp (((sortedItems_perm d).map Prod.fst).nodup_iff.mpr h)
  exact hle.imp₂ (fun p q => lt_of_le_of_ne) hne

end Dict
