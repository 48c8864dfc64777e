/-
Reading a list page by page while it changes.

* `Reads t k p q l`: `l` is what is read from page `p` on, each page from the list
  as it stands then, up to page `q`, the first one that is not full;
* `Reads.lossless`: when the list only gains elements, nothing that was there is
  missed;
* `Reads.sublist`: when the list only loses elements, nothing is read twice, or
  that was not there;
* `Reads.snapshot`: when elements are only appended, the list is read as it stands
  at the last page.
-/
import AdcsConnector.Library.Slice

namespace Slice

variable {α : Type*} {t : ℕ → List α} {k p q : ℕ} {l : List α}

/-- What is read from page `p` on, of the list `t i` at page `i`, up to page `q`. -/
inductive Reads (t : ℕ → List α) (k : ℕ) : ℕ → ℕ → List α → Prop
  | last {p : ℕ} (h : (page (t p) k p).length ≠ k) : Reads t k p p (page (t p) k p)
  | more {p q : ℕ} {l : List α} (h : (page (t p) k p).length = k) (hl : Reads t k (p + 1) q l) :
      Reads t k p q (page (t p) k p ++ l)

/-- The list from the beginning of a page on. -/
lemma page_append_drop (l : List α) (k p : ℕ) :
    page l k p ++ l.drop ((p + 1) * k) = l.drop (p * k) := by
  rw [page_eq, Nat.add_mul, Nat.one_mul, ← List.drop_drop, List.take_append_drop]

/-- A page that is not full goes to the end of the list. -/
lemma page_eq_drop {l : List α} (h : (page l k p).length ≠ k) : page l k p = l.drop (p * k) := by
  rw [page_length] at h
  rw [page_eq]
  refine List.take_of_length_le ?_
  rw [List.length_drop]
  omega

/-- A full page does not change when elements are appended. -/
lemma page_eq_of_full {l l' : List α} (h : l <+: l') (hfull : (page l k p).length = k) :
    page l k p = page l' k p := by
  obtain ⟨r, rfl⟩ := h
  rw [page_length] at hfull
  rw [page_eq, page_eq, List.drop_append, List.take_append_of_le_length]
  rw [List.length_drop]
  omega

namespace Reads

lemma le (h : Reads t k p q l) : p ≤ q := by
  induction h with
  | last => exact le_rfl
  | more _ _ ih => omega

/-- What is read was there when its page was read. -/
lemma exists_mem (h : Reads t k p q l) {a : α} (ha : a ∈ l) : ∃ i ≤ q, a ∈ t i := by
  have hpage : ∀ i, a ∈ page (t i) k i → a ∈ t i := fun i hi =>
    List.mem_of_mem_drop (List.mem_of_mem_take (page_eq (t i) k i ▸ hi))
  induction h with
  | @last p _ => exact ⟨p, le_rfl, hpage p ha⟩
  | @more p q l _ hl ih =>
      rcases List.mem_append.mp ha with ha | ha
      · exact ⟨p, Nat.le_of_succ_le hl.le, hpage p ha⟩
      · exact ih ha

/-- When the list only gains elements, those that were there are read, in order. -/
theorem lossless (ht : ∀ i, (t i).Sublist (t (i + 1))) (h : Reads t k p q l) :
    ((t p).drop (p * k)).Sublist l := by
  induction h with
  | last h => rw [page_eq_drop h]
  | @more p q l h _ ih =>
      rw [← page_append_drop]
      exact (List.Sublist.refl _).append (((ht p).drop _).trans ih)

/-- When the list only loses elements, what is read was there, each as often and in
order. -/
theorem sublist (ht : ∀ i, (t (i + 1)).Sublist (t i)) (h : Reads t k p q l) :
    l.Sublist ((t p).drop (p * k)) := by
  induction h with
  | last h => rw [page_eq_drop h]
  | @more p q l h _ ih =>
      rw [← page_append_drop]
      exact (List.Sublist.refl _).append (ih.trans ((ht p).drop _))

/-- When elements are only appended, the list is read as it stands at the last page. -/
theorem snapshot (ht : ∀ i, t i <+: t (i + 1)) (h : Reads t k p q l) :
    l = (t q).drop (p * k) := by
  have hle : ∀ {i j}, i ≤ j → t i <+: t j := fun hij =>
    Nat.le_induction List.prefix_rfl (fun n _ ih => ih.trans (ht n)) _ hij
  induction h with
  | last h => exact page_eq_drop h
  | @more p q l h hl ih =>
      rw [page_eq_of_full (hle (Nat.le_of_succ_le hl.le)) h, ih, page_append_drop]

end Reads

end Slice
