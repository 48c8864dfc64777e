/-
Programs that keep a record of what they have asked.

* `Meets Bad l l'`: between the record `l` and the later record `l'` stands a bad item,
  where an item may be bad because of what was asked before it;
* `FailsAt P record Bad m`: from the states in `P` the program stays in `P` and appends to
  its record, and raises exactly when it meets a bad item; the rules for values, sequences
  and loops.
-/
import AdcsConnector.Library.Program

universe u

namespace Program

variable {σ ε α β ι : Type u}

/-- What has been asked between two records contains a bad item. -/
def Meets (Bad : List ι → ι → Prop) (l l' : List ι) : Prop :=
  ∃ before q after, l <+: before ∧ l' = before ++ q :: after ∧ Bad before q

variable {Bad : List ι → ι → Prop}

lemma not_meets_self (l : List ι) : ¬ Meets Bad l l := by
  rintro ⟨before, q, after, hle, heq, -⟩
  have hlength := congrArg List.length heq
  rw [List.length_append, List.length_cons] at hlength
  have := hle.length_le
  omega

/-- A bad item between two records stands before or after a record between them. -/
lemma meets_iff_of_prefix {l l' l'' : List ι} (h : l <+: l') (h' : l' <+: l'') :
    Meets Bad l l'' ↔ Meets Bad l l' ∨ Meets Bad l' l'' := by
  constructor
  · rintro ⟨before, q, after, hle, rfl, hbad⟩
    rcases List.prefix_or_prefix_of_prefix h' (List.prefix_append before (q :: after)) with
      hbefore | hbefore
    · exact .inr ⟨before, q, after, hbefore, rfl, hbad⟩
    · -- the record in between has something after `before`, and the first of it is `q`
      obtain ⟨rest, rfl⟩ := hbefore
      rw [List.prefix_append_right_inj] at h'
      cases rest with
      | nil => exact .inr ⟨before, q, after, by rw [List.append_nil], rfl, hbad⟩
      | cons q' rest =>
          obtain ⟨rfl, -⟩ := List.cons_prefix_cons.mp h'
          exact .inl ⟨before, q', rest, hle, rfl, hbad⟩
  · rintro (⟨before, q, after, hle, rfl, hbad⟩ | ⟨before, q, after, hle, rfl, hbad⟩)
    · obtain ⟨rest, rfl⟩ := h'
      exact ⟨before, q, after ++ rest, hle, by rw [List.append_assoc, List.cons_append], hbad⟩
    · exact ⟨before, q, after, h.trans hle, rfl, hbad⟩

/-- From the states in `P` the program stays in `P` and appends to its record, and it
raises exactly when it meets a bad item. -/
structure FailsAt (P : σ → Prop) (record : σ → List ι) (Bad : List ι → ι → Prop)
    (m : Program σ ε α) : Prop where
  keeps : ∀ {s r t}, P s → m s = some (r, t) → P t
  grows : ∀ {s r t}, P s → m s = some (r, t) → record s <+: record t
  raises_iff : ∀ {s r t}, P s → m s = some (r, t) →
    ((∃ e, r = .error e) ↔ Meets Bad (record s) (record t))

variable {P : σ → Prop} {record : σ → List ι}

lemma failsAt_pure (a : α) : FailsAt P record Bad (pure a : Program σ ε α) where
  keeps hs h := by cases h; exact hs
  grows _ h := by cases h; exact List.prefix_refl _
  raises_iff _ h := by
    cases h
    exact iff_of_false (fun ⟨_, h⟩ => by cases h) (not_meets_self _)

lemma FailsAt.bind {m : Program σ ε α} {f : α → Program σ ε β} (hm : FailsAt P record Bad m)
    (hf : ∀ a, FailsAt P record Bad (f a)) : FailsAt P record Bad (m >>= f) where
  keeps hs h := by
    rcases run_bind_eq_some.mp h with ⟨e, hm', -⟩ | ⟨a, t, hm', hf'⟩
    · exact hm.keeps hs hm'
    · exact (hf a).keeps (hm.keeps hs hm') hf'
  grows hs h := by
    rcases run_bind_eq_some.mp h with ⟨e, hm', -⟩ | ⟨a, t, hm', hf'⟩
    · exact hm.grows hs hm'
    · exact (hm.grows hs hm').trans ((hf a).grows (hm.keeps hs hm') hf')
  raises_iff hs h := by
    rcases run_bind_eq_some.mp h with ⟨e, hm', rfl⟩ | ⟨a, t, hm', hf'⟩
    · exact iff_of_true ⟨e, rfl⟩ ((hm.raises_iff hs hm').mp ⟨e, rfl⟩)
    · have hfirst : ¬ Meets Bad (record _) (record t) := fun hmeets => by
        obtain ⟨e, he⟩ := (hm.raises_iff hs hm').mpr hmeets
        cases he
      have ht := hm.keeps hs hm'
      rw [(hf a).raises_iff ht hf',
        meets_iff_of_prefix (hm.grows hs hm') ((hf a).grows ht hf'), or_iff_right hfirst]

lemma FailsAt.foldlM {f : α → β → Program σ ε α} {l : List β}
    (h : ∀ b ∈ l, ∀ a, FailsAt P record Bad (f a b)) (a : α) :
    FailsAt P record Bad (l.foldlM f a) := by
  induction l generalizing a with
  | nil => exact failsAt_pure a
  | cons b l ih =>
      rw [List.foldlM_cons]
      exact (h b List.mem_cons_self a).bind fun a =>
        ih (fun b hb => h b (List.mem_cons_of_mem _ hb)) a

end Program
