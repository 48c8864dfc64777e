/-
Slices of a list and reading a list page by page.

* `slice l a b`: the elements number `a` to `b - 1`, as `l[a:b]`;
* `page l k p`: page `p`, counted from zero, of `k` elements;
* `flatMap_page`: the first `n` pages are the first `n * k` elements, so that
  `flatMap_page_ceil`, pages `0, …, ⌈|l| / k⌉ - 1` give back the list;
* `page_eq_nil_iff`, `page_length_eq_iff`: a page is empty exactly when it
  begins past the end, and full exactly when it does not end past the end.
-/
import Mathlib.Tactic

namespace Slice

variable {α β : Type*}

/-- `l[a:b]`. -/
def slice (l : List α) (a b : ℕ) : List α := (l.take b).drop a

/-- Page `p`, counted from zero, of `k` elements each. -/
def page (l : List α) (k p : ℕ) : List α := slice l (p * k) ((p + 1) * k)

lemma slice_map (f : α → β) (l : List α) (a b : ℕ) : slice (l.map f) a b = (slice l a b).map f := by
  rw [slice, slice, List.map_drop, List.map_take]

lemma page_map (f : α → β) (l : List α) (k p : ℕ) : page (l.map f) k p = (page l k p).map f :=
  slice_map f l _ _

/-- A page is a window of `k` elements. -/
lemma page_eq (l : List α) (k p : ℕ) : page l k p = (l.drop (p * k)).take k := by
  rw [page, slice, List.drop_take]
  congr 1
  rw [Nat.add_mul, Nat.one_mul, Nat.add_sub_cancel_left]

lemma page_length (l : List α) (k p : ℕ) : (page l k p).length = min k (l.length - p * k) := by
  rw [page_eq, List.length_take, List.length_drop]

/-- A page is empty exactly when it begins past the end of the list. -/
lemma page_eq_nil_iff {l : List α} {k p : ℕ} (hk : 1 ≤ k) :
    page l k p = [] ↔ l.length ≤ p * k := by
  rw [← List.length_eq_zero_iff, page_length]
  omega

/-- A page is full exactly when the list reaches its end. -/
lemma page_length_eq_iff {l : List α} {k p : ℕ} (hk : 1 ≤ k) :
    (page l k p).length = k ↔ (p + 1) * k ≤ l.length := by
  rw [page_length, Nat.add_mul, Nat.one_mul]
  omega

/-- A page goes on where the pages before it end. -/
lemma take_append_page (l : List α) (k p : ℕ) :
    l.take (p * k) ++ page l k p = l.take ((p + 1) * k) := by
  rw [page_eq, Nat.add_mul, Nat.one_mul, List.take_add]

/-- The first `n` pages are the first `n * k` elements. -/
theorem flatMap_page (l : List α) (k n : ℕ) :
    (List.range n).flatMap (page l k) = l.take (n * k) := by
  induction n with
  | zero => simp
  | succ n ih =>
      calc (List.range (n + 1)).flatMap (page l k)
          = (List.range n).flatMap (page l k) ++ page l k n := by simp [List.range_succ]
        _ = l.take (n * k) ++ page l k n := by rw [ih]
        _ = l.take ((n + 1) * k) := take_append_page l k n

/-- `⌈n / k⌉` pages of `k ≥ 1` elements hold `n` elements. -/
lemma le_mul_of_ceil_le {n k m : ℕ} (hk : 1 ≤ k) (h : (n + k - 1) / k ≤ m) : n ≤ m * k := by
  have hdiv : n + k - 1 < k * ((n + k - 1) / k) + k := Nat.lt_mul_div_succ _ hk
  have hmul : k * ((n + k - 1) / k) ≤ k * m := Nat.mul_le_mul_left k h
  rw [Nat.mul_comm m]
  omega

/-- **Paging is complete**: `⌈|l| / k⌉` pages of `k ≥ 1` elements give back the
list. -/
theorem flatMap_page_ceil (l : List α) {k : ℕ} (hk : 1 ≤ k) :
    (List.range ((l.length + k - 1) / k)).flatMap (page l k) = l := by
  rw [flatMap_page]
  exact List.take_of_length_le (le_mul_of_ceil_le hk le_rfl)

end Slice
