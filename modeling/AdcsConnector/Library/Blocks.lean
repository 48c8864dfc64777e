/-
Lists that come in blocks, and machines that read them item by item.

* `Interspersed R O as bs`: the items `as`, one entry each, in order, with
  entries of another kind in between; a fold that passes these over is a fold
  over the items (`Interspersed.foldlM`);
* `Separated R Sep bs ls`: the entries of the blocks `bs` in order, with at
  least one separator between two blocks;
* `segments completes bs`: the complete blocks, each with the incomplete ones
  directly before it, which is all that a machine can have gathered that forgets
  everything when it completes a record (`foldlM_segmentsFrom`).
-/
import AdcsConnector.Library.Lists

namespace Blocks

variable {α β σ ε ρ : Type*}

/-! ### Entries in between -/

/-- The items `as`, each with its entry, in order, and other entries anywhere. -/
inductive Interspersed (R : α → β → Prop) (O : β → Prop) : List α → List β → Prop
  | nil : Interspersed R O [] []
  | other {as bs b} (hb : O b) (hrest : Interspersed R O as bs) : Interspersed R O as (b :: bs)
  | item {a as b bs} (hab : R a b) (hrest : Interspersed R O as bs) :
      Interspersed R O (a :: as) (b :: bs)

namespace Interspersed

variable {R : α → β → Prop} {O : β → Prop} {as as' : List α} {bs bs' : List β}

/-- Every entry belongs to an item or is another one. -/
lemma mem_cases (h : Interspersed R O as bs) {b : β} (hb : b ∈ bs) :
    O b ∨ ∃ a ∈ as, R a b := by
  induction h with
  | nil => simp at hb
  | other hO _ ih =>
      rcases List.mem_cons.mp hb with rfl | hb
      · exact .inl hO
      · exact ih hb
  | item hab _ ih =>
      rcases List.mem_cons.mp hb with rfl | hb
      · exact .inr ⟨_, List.mem_cons_self, hab⟩
      · exact (ih hb).imp_right fun ⟨a, ha, hR⟩ => ⟨a, List.mem_cons_of_mem _ ha, hR⟩

lemma append (h : Interspersed R O as bs) (h' : Interspersed R O as' bs') :
    Interspersed R O (as ++ as') (bs ++ bs') := by
  induction h with
  | nil => exact h'
  | other hb _ ih => exact .other hb ih
  | item hab _ ih => exact .item hab ih

/-- Items alone. -/
lemma of_map {f : α → β} (h : ∀ a ∈ as, R a (f a)) : Interspersed R O as (as.map f) := by
  induction as with
  | nil => exact .nil
  | cons a as ih =>
      exact .item (h a List.mem_cons_self) (ih fun a ha => h a (List.mem_cons_of_mem _ ha))

/-- A fold that passes the other entries over is a fold over the items. -/
lemma foldlM {f : σ → β → Except ε σ} {g : σ → α → Except ε σ} (h : Interspersed R O as bs)
    (hother : ∀ b, O b → ∀ s, f s b = .ok s) (hitem : ∀ a ∈ as, ∀ b, R a b → ∀ s, f s b = g s a)
    (s : σ) : bs.foldlM f s = as.foldlM g s := by
  induction h generalizing s with
  | nil => rfl
  | other hb _ ih =>
      rw [Rows.foldlM_cons_of_ok (hother _ hb s)]
      exact ih hitem s
  | item hab _ ih =>
      rw [List.foldlM_cons, List.foldlM_cons, hitem _ List.mem_cons_self _ hab]
      exact congrArg _ (funext (ih fun a ha => hitem a (List.mem_cons_of_mem _ ha)))

end Interspersed

/-! ### Separated blocks -/

/-- The entries of the blocks `bs` in order, at least one separator after each
block that is not the last. -/
inductive Separated (R : α → List β → Prop) (Sep : β → Prop) : List α → List β → Prop
  | nil : Separated R Sep [] []
  | last {b ls} (hb : R b ls) : Separated R Sep [b] ls
  | cons {b bs ls seps rest} (hb : R b ls) (hne : seps ≠ []) (hseps : ∀ l ∈ seps, Sep l)
      (hrest : Separated R Sep bs rest) : Separated R Sep (b :: bs) (ls ++ (seps ++ rest))

/-- Every entry is a separator or belongs to a block. -/
lemma Separated.mem_cases {R : α → List β → Prop} {Sep : β → Prop} {bs : List α} {ls : List β}
    (h : Separated R Sep bs ls) {l : β} (hl : l ∈ ls) :
    Sep l ∨ ∃ b ∈ bs, ∃ ls', R b ls' ∧ l ∈ ls' := by
  induction h with
  | nil => simp at hl
  | last hb => exact .inr ⟨_, List.mem_cons_self, _, hb, hl⟩
  | cons hb _ hseps _ ih =>
      rcases List.mem_append.mp hl with hl | hl
      · exact .inr ⟨_, List.mem_cons_self, _, hb, hl⟩
      rcases List.mem_append.mp hl with hl | hl
      · exact .inl (hseps _ hl)
      · exact (ih hl).imp_right fun ⟨b, hbs, hR⟩ => ⟨b, List.mem_cons_of_mem _ hbs, hR⟩

/-- A fold that passes the separators over is a fold over the blocks. -/
lemma Separated.foldlM {R : α → List β → Prop} {Sep : β → Prop} {bs : List α} {ls : List β}
    {f : σ → β → Except ε σ} {g : σ → α → Except ε σ} (h : Separated R Sep bs ls)
    (hsep : ∀ l, Sep l → ∀ s, f s l = .ok s)
    (hblock : ∀ b ∈ bs, ∀ ls, R b ls → ∀ s, ls.foldlM f s = g s b) (s : σ) :
    ls.foldlM f s = bs.foldlM g s := by
  induction h generalizing s with
  | nil => rfl
  | last hb => rw [hblock _ List.mem_cons_self _ hb, List.foldlM_cons]; simp
  | @cons b bs ls seps rest hb _ hseps _ ih =>
      have hskip : ∀ s, seps.foldlM f s = .ok s := fun s =>
        Rows.foldlM_eq_self fun l hl => hsep l (hseps l hl) s
      rw [List.foldlM_append, hblock b List.mem_cons_self ls hb, List.foldlM_cons]
      refine congrArg _ (funext fun s' => ?_)
      rw [Rows.foldlM_append_of_ok (hskip s')]
      exact ih (fun b hb => hblock b (List.mem_cons_of_mem _ hb)) s'

/-! ### Segments -/

section Segments

variable (completes : α → Bool)

/-- The segments of the blocks `bs`, `gathered` being the incomplete blocks
before them. -/
def segmentsFrom : List α → List α → List (List α × α)
  | _, [] => []
  | gathered, b :: bs =>
      if completes b then (gathered, b) :: segmentsFrom [] bs
      else segmentsFrom (gathered ++ [b]) bs

/-- The complete blocks, each with the incomplete ones directly before it. -/
def segments (bs : List α) : List (List α × α) := segmentsFrom completes [] bs

variable {completes}

lemma map_snd_segmentsFrom (gathered bs : List α) :
    (segmentsFrom completes gathered bs).map Prod.snd = bs.filter completes := by
  induction bs generalizing gathered with
  | nil => rfl
  | cons b bs ih =>
      by_cases hb : completes b
      · rw [segmentsFrom, if_pos hb, List.map_cons, ih, List.filter_cons_of_pos hb]
      · rw [segmentsFrom, if_neg hb, ih, List.filter_cons_of_neg hb]

/-- The blocks of a segment are blocks. -/
lemma mem_of_mem_segmentsFrom {gathered bs : List α} {p : List α × α}
    (h : p ∈ segmentsFrom completes gathered bs) :
    (∀ b ∈ p.1, b ∈ gathered ++ bs) ∧ p.2 ∈ bs := by
  induction bs generalizing gathered with
  | nil => simp [segmentsFrom] at h
  | cons b bs ih =>
      by_cases hb : completes b
      · rw [segmentsFrom, if_pos hb] at h
        rcases List.mem_cons.mp h with rfl | h
        · exact ⟨fun x hx => List.mem_append_left _ hx, List.mem_cons_self⟩
        · obtain ⟨h₁, h₂⟩ := ih h
          exact ⟨fun x hx => by simpa using .inr (.inr (h₁ x hx)), List.mem_cons_of_mem _ h₂⟩
      · rw [segmentsFrom, if_neg hb] at h
        obtain ⟨h₁, h₂⟩ := ih h
        exact ⟨fun x hx => by simpa using h₁ x hx, List.mem_cons_of_mem _ h₂⟩

lemma mem_of_mem_segments {bs : List α} {p : List α × α} (h : p ∈ segments completes bs) :
    (∀ b ∈ p.1, b ∈ bs) ∧ p.2 ∈ bs :=
  mem_of_mem_segmentsFrom h

/-- What is made of the segments is what is made of the complete blocks alone
when nothing gathered before a complete block matters. -/
lemma map_segments_eq_iff {emit : List α → α → ρ} {bs : List α} :
    (segments completes bs).map (fun p => emit p.1 p.2) =
        (bs.filter completes).map (emit []) ↔
      ∀ p ∈ segments completes bs, emit p.1 p.2 = emit [] p.2 := by
  rw [← map_snd_segmentsFrom [] bs, List.map_map]
  exact List.map_inj_left

/-- A machine whose state is `st gathered` between two blocks, and that makes a
record of every complete block and what is gathered before it. -/
lemma foldlM_segmentsFrom {st : List α → σ} {emit : List α → α → ρ}
    {f : σ × List ρ → α → Except ε (σ × List ρ)} {gathered bs : List α}
    (hcomplete : ∀ b ∈ bs, completes b → ∀ g rs,
      f (st g, rs) b = .ok (st [], rs ++ [emit g b]))
    (hincomplete : ∀ b ∈ bs, ¬ completes b → ∀ g rs, f (st g, rs) b = .ok (st (g ++ [b]), rs))
    (rs : List ρ) : ∃ g, bs.foldlM f (st gathered, rs) =
      .ok (st g, rs ++ (segmentsFrom completes gathered bs).map fun p => emit p.1 p.2) := by
  induction bs generalizing gathered rs with
  | nil => exact ⟨gathered, by simp [segmentsFrom, pure, Except.pure]⟩
  | cons b bs ih =>
      simp only [List.forall_mem_cons] at hcomplete hincomplete
      by_cases hb : completes b
      · obtain ⟨g, hg⟩ := @ih [] hcomplete.2 hincomplete.2 (rs ++ [emit gathered b])
        refine ⟨g, ?_⟩
        rw [Rows.foldlM_cons_of_ok (hcomplete.1 hb gathered rs), hg, segmentsFrom, if_pos hb]
        simp
      · obtain ⟨g, hg⟩ := @ih (gathered ++ [b]) hcomplete.2 hincomplete.2 rs
        refine ⟨g, ?_⟩
        rw [Rows.foldlM_cons_of_ok (hincomplete.1 hb gathered rs), hg, segmentsFrom, if_neg hb]

end Segments

end Blocks
