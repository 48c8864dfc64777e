/-
Python's string methods on lists of characters: stripping, splitting into
lines, prefix tests and the removal of a substring.

* `strip`, `lines`, `startsWith`, `partition`, `remove`: `str.strip`,
  `str.split("\n")`, `str.startswith`, `str.split(sep, 1)` and
  `str.replace(old, "")`;
* `lines_strip`: the lines of a stripped text are its lines without the blank
  ones at both ends, and these are prefixes of the lines they come from
  (`exists_prefix_of_mem_trimEnd`); a fold that passes blank lines over reads
  the same of both (`foldlM_lines_strip`);
* `remove_append`, `remove_self_append`: a removal passes over what has no
  first character of the substring, and takes an occurrence out.
-/
import Mathlib.Data.List.DropRight
import Mathlib.Data.List.Infix
import Mathlib.Tactic
import AdcsConnector.Library.Lists

namespace Text

/-! ### Stripping -/

/-- `str.isspace` of one character. -/
def isSpace (c : Char) : Bool :=
  (9 ≤ c.toNat && c.toNat ≤ 13) || (28 ≤ c.toNat && c.toNat ≤ 32) || c.toNat = 0x85 ||
    c.toNat = 0xA0 || c.toNat = 0x1680 || (0x2000 ≤ c.toNat && c.toNat ≤ 0x200A) ||
    c.toNat = 0x2028 || c.toNat = 0x2029 || c.toNat = 0x202F || c.toNat = 0x205F ||
    c.toNat = 0x3000

/-- `str.lstrip`. -/
def lstrip (s : List Char) : List Char := s.dropWhile isSpace

/-- `str.rstrip`. -/
def rstrip (s : List Char) : List Char := s.rdropWhile isSpace

/-- `str.strip`. -/
def strip (s : List Char) : List Char := rstrip (lstrip s)

/-- A line of whitespace only. -/
def Blank (l : List Char) : Prop := ∀ c ∈ l, isSpace c

instance (l : List Char) : Decidable (Blank l) :=
  decidable_of_iff (l.all isSpace = true) List.all_eq_true

/-- A line that begins with a character other than whitespace. -/
def Unindented (l : List Char) : Prop := ∃ c s, l = c :: s ∧ ¬ isSpace c

lemma Unindented.not_blank {l : List Char} (h : Unindented l) : ¬ Blank l := by
  obtain ⟨c, s, rfl, hc⟩ := h
  exact fun hb => hc (hb c List.mem_cons_self)

lemma lstrip_append_of_blank {l : List Char} (h : Blank l) (s : List Char) :
    lstrip (l ++ s) = lstrip s :=
  List.dropWhile_append_of_pos h

lemma lstrip_of_unindented {l : List Char} (h : Unindented l) (s : List Char) :
    lstrip (l ++ s) = l ++ s := by
  obtain ⟨c, l, rfl, hc⟩ := h
  exact List.dropWhile_cons_of_neg hc

lemma rstrip_eq_nil {s : List Char} : rstrip s = [] ↔ Blank s := List.rdropWhile_eq_nil_iff

lemma rstrip_isPrefix (s : List Char) : rstrip s <+: s := List.rdropWhile_prefix _ _

lemma rstrip_append_of_blank {l : List Char} (h : Blank l) (s : List Char) :
    rstrip (s ++ l) = rstrip s := by
  rw [rstrip, rstrip, List.rdropWhile, List.rdropWhile, List.reverse_append,
    List.dropWhile_append_of_pos fun c hc => h c (List.mem_reverse.mp hc)]

lemma rstrip_append_of_not_blank {l : List Char} (h : ¬ Blank l) (s : List Char) :
    rstrip (s ++ l) = s ++ rstrip l := by
  have hne : l.reverse.dropWhile isSpace ≠ [] := by
    rw [Ne, List.dropWhile_eq_nil_iff]
    exact fun hall => h fun c hc => hall c (List.mem_reverse.mpr hc)
  rw [rstrip, rstrip, List.rdropWhile, List.rdropWhile, List.reverse_append, List.dropWhile_append,
    if_neg (by simpa [List.isEmpty_iff] using hne), List.reverse_append, List.reverse_reverse]

/-- Whitespace around a stripped text is stripped. -/
lemma strip_of_blank {l : List Char} (h : Blank l) : strip l = [] := by
  have hl : lstrip l = [] := List.dropWhile_eq_nil_iff.mpr h
  rw [strip, hl]
  rfl

lemma rstrip_cons {c : Char} (hc : ¬ isSpace c) (s : List Char) :
    rstrip (c :: s) = c :: rstrip s := by
  by_cases hs : Blank s
  · have hone : rstrip [c] = [c] := List.rdropWhile_concat_neg isSpace [] c hc
    rw [rstrip_eq_nil.mpr hs, ← List.singleton_append, rstrip_append_of_blank hs, hone]
  · rw [← List.singleton_append, rstrip_append_of_not_blank hs]
    rfl

/-- Whitespace at the end does not matter to a stripped text. -/
lemma strip_rstrip (s : List Char) : strip (rstrip s) = strip s := by
  obtain ⟨ws, hws⟩ := rstrip_isPrefix s
  have hblank : Blank ws := by
    by_contra hws'
    have hlen := congrArg List.length (rstrip_append_of_not_blank hws' (rstrip s))
    rw [hws, List.length_append] at hlen
    have hne : rstrip ws ≠ [] := fun h => hws' (rstrip_eq_nil.mp h)
    have hpos := List.length_pos_iff.mpr hne
    omega
  by_cases hs : Blank (rstrip s)
  · have hs' : Blank s := by
      rw [← hws]
      intro c hc
      exact (List.mem_append.mp hc).elim (hs c) (hblank c)
    rw [strip_of_blank hs, strip_of_blank hs']
  · have hdrop : (rstrip s).dropWhile isSpace ≠ [] := by
      rw [Ne, List.dropWhile_eq_nil_iff]
      exact hs
    have hl : lstrip s = lstrip (rstrip s) ++ ws := by
      conv_lhs => rw [← hws]
      rw [lstrip, List.dropWhile_append, if_neg (by simpa [List.isEmpty_iff] using hdrop)]
      rfl
    rw [strip, strip, hl, rstrip_append_of_blank hblank]

/-- A text without whitespace is stripped already. -/
lemma strip_of_not_isSpace {s : List Char} (h : ∀ c ∈ s, ¬ isSpace c) : strip s = s := by
  have hl : lstrip s = s := by
    cases s with
    | nil => rfl
    | cons c s => exact List.dropWhile_cons_of_neg (h c List.mem_cons_self)
  rw [strip, hl]
  exact List.rdropWhile_eq_self_iff.mpr fun hne => h _ (List.getLast_mem hne)

/-! ### Lines -/

/-- `str.split("\n")`. -/
def lines (s : List Char) : List (List Char) := s.splitOn '\n'

/-- `"\n".join`. -/
def unlines (ls : List (List Char)) : List Char := List.intercalate ['\n'] ls

/-- Lines without the blank ones at the end, the last one left stripped on the
right. -/
def trimEnd : List (List Char) → List (List Char)
  | [] => []
  | l :: ls =>
      if ∀ l ∈ ls, Blank l then (if Blank l then [] else [rstrip l]) else l :: trimEnd ls

lemma unlines_cons (l : List Char) {ls : List (List Char)} (h : ls ≠ []) :
    unlines (l :: ls) = l ++ '\n' :: unlines ls := by
  obtain ⟨l', ls', rfl⟩ := List.exists_cons_of_ne_nil h
  simp [unlines]

lemma blank_unlines {ls : List (List Char)} : Blank (unlines ls) ↔ ∀ l ∈ ls, Blank l := by
  induction ls with
  | nil => simp [unlines, Blank]
  | cons l ls ih =>
      by_cases hls : ls = []
      · simp [hls, unlines, Blank]
      · rw [unlines_cons l hls, List.forall_mem_cons, ← ih]
        simp only [Blank, List.mem_append, List.mem_cons]
        constructor
        · intro h
          exact ⟨fun c hc => h c (.inl hc), fun c hc => h c (.inr (.inr hc))⟩
        · rintro ⟨hl, hrest⟩ c (hc | rfl | hc)
          · exact hl c hc
          · decide
          · exact hrest c hc

/-- Stripping a text on the right trims its lines at the end. -/
lemma rstrip_unlines (ls : List (List Char)) : rstrip (unlines ls) = unlines (trimEnd ls) := by
  induction ls with
  | nil => rfl
  | cons l ls ih =>
      have hnl : Blank ['\n'] := by decide
      by_cases hls : ls = []
      · subst hls
        by_cases hl : Blank l
        · simp [unlines, trimEnd, hl, rstrip_eq_nil.mpr hl]
        · simp [unlines, trimEnd, hl]
      · rw [unlines_cons l hls, trimEnd]
        by_cases hblank : ∀ l ∈ ls, Blank l
        · have hrest : Blank ('\n' :: unlines ls) := by
            intro c hc
            rcases List.mem_cons.mp hc with rfl | hc
            · decide
            · exact blank_unlines.mpr hblank c hc
          rw [rstrip_append_of_blank hrest, if_pos hblank]
          by_cases hl : Blank l
          · rw [if_pos hl, rstrip_eq_nil.mpr hl]
            rfl
          · rw [if_neg hl]
            simp [unlines]
        · have hrest : ¬ Blank (unlines ls) := fun h => hblank (blank_unlines.mp h)
          have hne : trimEnd ls ≠ [] := by
            intro h
            rw [h] at ih
            exact hrest (rstrip_eq_nil.mp ih)
          calc rstrip (l ++ '\n' :: unlines ls)
              = rstrip ((l ++ ['\n']) ++ unlines ls) := by simp
            _ = (l ++ ['\n']) ++ unlines (trimEnd ls) := by
                rw [rstrip_append_of_not_blank hrest, ih]
            _ = unlines (l :: trimEnd ls) := by simp [unlines_cons l hne]
            _ = _ := by rw [if_neg hblank]

/-- Trimming works on the end that holds a line not blank. -/
lemma trimEnd_append (ls : List (List Char)) {ls' : List (List Char)} (h : ∃ l ∈ ls', ¬ Blank l) :
    trimEnd (ls ++ ls') = ls ++ trimEnd ls' := by
  obtain ⟨l', hl', hb⟩ := h
  induction ls with
  | nil => rfl
  | cons l ls ih =>
      rw [List.cons_append, trimEnd, if_neg, ih, List.cons_append]
      exact fun hall => hb (hall l' (List.mem_append_right _ hl'))

/-- Blank lines at the end are trimmed. -/
lemma trimEnd_append_of_blank (ls : List (List Char)) {ls' : List (List Char)}
    (h : ∀ l ∈ ls', Blank l) : trimEnd (ls ++ ls') = trimEnd ls := by
  induction ls with
  | nil =>
      cases ls' with
      | nil => rfl
      | cons l ls' =>
          rw [List.forall_mem_cons] at h
          exact (if_pos h.2).trans (if_pos h.1)
  | cons l ls ih =>
      have hiff : (∀ x ∈ ls ++ ls', Blank x) ↔ ∀ x ∈ ls, Blank x := by
        rw [List.forall_mem_append]
        exact and_iff_left h
      rw [List.cons_append, trimEnd, trimEnd, ih]
      exact if_congr hiff rfl rfl

/-- A line kept is one of the lines, or one that is not blank without its
whitespace at the end. -/
lemma mem_trimEnd {ls : List (List Char)} {l : List Char} (h : l ∈ trimEnd ls) :
    ∃ l' ∈ ls, l = l' ∨ (l = rstrip l' ∧ ¬ Blank l') := by
  induction ls with
  | nil => simp [trimEnd] at h
  | cons l₀ ls ih =>
      rw [trimEnd] at h
      split_ifs at h with hblank hl
      · simp at h
      · rw [List.mem_singleton] at h
        exact ⟨l₀, List.mem_cons_self, .inr ⟨h, hl⟩⟩
      · rcases List.mem_cons.mp h with rfl | h
        · exact ⟨l, List.mem_cons_self, .inl rfl⟩
        · obtain ⟨l', hl', hor⟩ := ih h
          exact ⟨l', List.mem_cons_of_mem _ hl', hor⟩

/-- A line kept is a prefix of one of the lines. -/
lemma exists_prefix_of_mem_trimEnd {ls : List (List Char)} {l : List Char}
    (h : l ∈ trimEnd ls) : ∃ l' ∈ ls, l <+: l' := by
  obtain ⟨l', hl', rfl | ⟨rfl, -⟩⟩ := mem_trimEnd h
  · exact ⟨l, hl', List.prefix_refl l⟩
  · exact ⟨l', hl', rstrip_isPrefix l'⟩

/-- The first of the lines is kept when it is unindented. -/
lemma exists_trimEnd_cons {l : List Char} (hl : Unindented l) (ls : List (List Char)) :
    ∃ l' ls', trimEnd (l :: ls) = l' :: ls' ∧ Unindented l' ∧ l' <+: l ∧
      ∀ x ∈ ls', ∃ y ∈ ls, x <+: y := by
  rw [trimEnd, if_neg hl.not_blank]
  split_ifs with hblank
  · refine ⟨rstrip l, [], rfl, ?_, rstrip_isPrefix l, by simp⟩
    have hne : rstrip l ≠ [] := fun h => hl.not_blank (rstrip_eq_nil.mp h)
    obtain ⟨c, s, heq⟩ := List.exists_cons_of_ne_nil hne
    obtain ⟨c', s', rfl, hc⟩ := hl
    have hpre := rstrip_isPrefix (c' :: s')
    rw [heq, List.cons_prefix_cons] at hpre
    exact ⟨c, s, heq, hpre.1 ▸ hc⟩
  · exact ⟨l, trimEnd ls, rfl, hl, List.prefix_refl l,
      fun x hx => exists_prefix_of_mem_trimEnd hx⟩

/-- Blank lines at the front are stripped. -/
lemma lstrip_unlines_append {lead : List (List Char)} (hlead : ∀ l ∈ lead, Blank l)
    {ls : List (List Char)} (hls : ls ≠ []) :
    lstrip (unlines (lead ++ ls)) = lstrip (unlines ls) := by
  induction lead with
  | nil => rfl
  | cons l lead ih =>
      have hnl : Blank (l ++ ['\n']) := by
        intro c hc
        rcases List.mem_append.mp hc with hc | hc
        · exact hlead l List.mem_cons_self c hc
        · rw [List.mem_singleton.mp hc]
          decide
      have hsplit : l ++ '\n' :: unlines (lead ++ ls) = (l ++ ['\n']) ++ unlines (lead ++ ls) := by
        simp
      rw [List.cons_append, unlines_cons l (by simp [hls]), hsplit, lstrip_append_of_blank hnl]
      exact ih fun l hl => hlead l (List.mem_cons_of_mem _ hl)

/-- **The lines of a stripped text** that begins with blank lines and an
unindented one. -/
theorem lines_strip {lead : List (List Char)} (hlead : ∀ l ∈ lead, Blank l) {l : List Char}
    (hl : Unindented l) {ls : List (List Char)} (hnl : ∀ x ∈ l :: ls, '\n' ∉ x) :
    lines (strip (unlines (lead ++ l :: ls))) = trimEnd (l :: ls) := by
  have hstart : lstrip (unlines (l :: ls)) = unlines (l :: ls) := by
    by_cases hls : ls = []
    · subst hls
      simpa [unlines] using lstrip_of_unindented hl []
    · rw [unlines_cons l hls]
      exact lstrip_of_unindented hl _
  rw [strip, lstrip_unlines_append hlead (by simp), hstart, rstrip_unlines]
  refine List.splitOn_intercalate '\n' ?_ ?_
  · intro x hx hmem
    obtain ⟨y, hy, hpre⟩ := exists_prefix_of_mem_trimEnd hx
    exact hnl y hy (hpre.subset hmem)
  · obtain ⟨l', ls', heq, -⟩ := exists_trimEnd_cons hl ls
    simp [heq]

/-- A text of blank lines has one line left, the empty one. -/
lemma lines_strip_of_blank {ls : List (List Char)} (h : ∀ l ∈ ls, Blank l) :
    lines (strip (unlines ls)) = [[]] := by
  rw [strip_of_blank (blank_unlines.mpr h)]
  rfl

/-- A text that begins with an unindented line, after any blank ones. -/
def StartsUnindented (ls : List (List Char)) : Prop :=
  ∀ l ∈ (ls.dropWhile fun l => decide (Blank l)).head?, Unindented l

lemma startsUnindented_of_forall {ls : List (List Char)}
    (h : ∀ l ∈ ls, ¬ Blank l → Unindented l) : StartsUnindented ls := by
  intro l hl
  have hmem : l ∈ ls.dropWhile fun l => decide (Blank l) := List.mem_of_mem_head? hl
  refine h l ((List.dropWhile_sublist _).subset hmem) fun hblank => ?_
  have hhead := List.head?_dropWhile_not (fun l => decide (Blank l)) ls
  rw [Option.mem_def.mp hl] at hhead
  simp [hblank] at hhead

/-- A line of a stripped text is empty, one of the lines, or one without the
whitespace at its end. -/
lemma mem_lines_strip {ls : List (List Char)} (hnl : ∀ l ∈ ls, '\n' ∉ l)
    (hstart : StartsUnindented ls) {l : List Char} (h : l ∈ lines (strip (unlines ls))) :
    l = [] ∨ ∃ l' ∈ ls, l = l' ∨ l = rstrip l' := by
  have hsplit := List.takeWhile_append_dropWhile (p := fun l => decide (Blank l)) (l := ls)
  have hlead : ∀ l ∈ ls.takeWhile fun l => decide (Blank l), Blank l := fun l hl => by
    simpa using List.mem_takeWhile_imp hl
  rw [StartsUnindented] at hstart
  generalize (ls.takeWhile fun l => decide (Blank l)) = lead at hsplit hlead
  generalize (ls.dropWhile fun l => decide (Blank l)) = rest at hsplit hstart
  subst hsplit
  cases rest with
  | nil =>
      rw [List.append_nil, lines_strip_of_blank hlead] at h
      exact .inl (List.mem_singleton.mp h)
  | cons l₀ rest =>
      rw [lines_strip hlead (hstart l₀ rfl) fun x hx => hnl x (List.mem_append_right _ hx)] at h
      obtain ⟨l', hl', heq⟩ := mem_trimEnd h
      exact .inr ⟨l', List.mem_append_right _ hl', heq.imp_right And.left⟩

section Fold

variable {σ ε : Type*} {f : σ → List Char → Except ε σ}

/-- A fold over trimmed lines that sees neither blank lines nor the whitespace
at the end of a line. -/
lemma foldlM_trimEnd {ls : List (List Char)} (hblank : ∀ l, Blank l → ∀ s, f s l = .ok s)
    (hrstrip : ∀ l ∈ ls, ∀ s, f s (rstrip l) = f s l) (s : σ) :
    (trimEnd ls).foldlM f s = ls.foldlM f s := by
  induction ls generalizing s with
  | nil => rfl
  | cons l ls ih =>
      rw [trimEnd]
      split_ifs with hrest hl
      · refine (Rows.foldlM_eq_self fun l' hl' => ?_).symm
        rcases List.mem_cons.mp hl' with rfl | hl'
        · exact hblank _ hl s
        · exact hblank l' (hrest l' hl') s
      · have hskip : ∀ s, ls.foldlM f s = .ok s := fun s =>
          Rows.foldlM_eq_self fun l hl => hblank l (hrest l hl) s
        rw [List.foldlM_cons, List.foldlM_cons, hrstrip l List.mem_cons_self]
        refine congrArg _ (funext fun s' => ?_)
        rw [hskip s']
        rfl
      · rw [List.foldlM_cons, List.foldlM_cons]
        exact congrArg _ (funext (ih fun l hl => hrstrip l (List.mem_cons_of_mem _ hl)))

/-- The same fold over the lines of a stripped text. -/
lemma foldlM_lines_strip {ls : List (List Char)} (hblank : ∀ l, Blank l → ∀ s, f s l = .ok s)
    (hrstrip : ∀ l ∈ ls, ∀ s, f s (rstrip l) = f s l) (hnl : ∀ l ∈ ls, '\n' ∉ l)
    (hstart : StartsUnindented ls) (s : σ) :
    (lines (strip (unlines ls))).foldlM f s = ls.foldlM f s := by
  have hsplit := List.takeWhile_append_dropWhile (p := fun l => decide (Blank l)) (l := ls)
  have hlead : ∀ l ∈ ls.takeWhile fun l => decide (Blank l), Blank l := fun l hl => by
    simpa using List.mem_takeWhile_imp hl
  have hskip : (ls.takeWhile fun l => decide (Blank l)).foldlM f s = .ok s :=
    Rows.foldlM_eq_self fun l hl => hblank l (hlead l hl) s
  rw [StartsUnindented] at hstart
  generalize (ls.takeWhile fun l => decide (Blank l)) = lead at hsplit hlead hskip
  generalize (ls.dropWhile fun l => decide (Blank l)) = rest at hsplit hstart
  subst hsplit
  cases rest with
  | nil =>
      rw [List.append_nil, hskip, lines_strip_of_blank hlead]
      exact Rows.foldlM_eq_self fun l hl => hblank l (by simp [List.mem_singleton.mp hl, Blank]) s
  | cons l rest =>
      have hrest : ∀ x ∈ l :: rest, x ∈ lead ++ l :: rest := fun x hx => List.mem_append_right _ hx
      rw [lines_strip hlead (hstart l rfl) fun x hx => hnl x (hrest x hx),
        foldlM_trimEnd hblank (fun x hx => hrstrip x (hrest x hx)) s,
        Rows.foldlM_append_of_ok hskip]

end Fold

/-! ### Prefixes and substrings -/

/-- `str.startswith`. -/
def startsWith (s : List Char) (p : String) : Bool := p.toList.isPrefixOf s

lemma startsWith_iff {s : List Char} {p : String} : startsWith s p = true ↔ p.toList <+: s :=
  List.isPrefixOf_iff_prefix

lemma startsWith_eq_false {s : List Char} {p : String} :
    startsWith s p = false ↔ ¬ p.toList <+: s := by
  rw [← startsWith_iff, Bool.not_eq_true]

/-- `str.split(sep, 1)`, when `sep` occurs. -/
def partition (sep : Char) : List Char → Option (List Char × List Char)
  | [] => none
  | c :: s => if c = sep then some ([], s) else (partition sep s).map fun p => (c :: p.1, p.2)

lemma partition_append {sep : Char} {a : List Char} (h : sep ∉ a) (b : List Char) :
    partition sep (a ++ sep :: b) = some (a, b) := by
  induction a with
  | nil => simp [partition]
  | cons c a ih =>
      rw [List.mem_cons, not_or] at h
      rw [List.cons_append, partition, if_neg fun heq => h.1 heq.symm, ih h.2]
      rfl

/-- `str.replace(old, "")`, with `n` more characters of an occurrence to pass. -/
def removeFrom (old : List Char) : ℕ → List Char → List Char
  | _, [] => []
  | n + 1, _ :: s => removeFrom old n s
  | 0, c :: s =>
      if old.isPrefixOf (c :: s) then removeFrom old (old.length - 1) s
      else c :: removeFrom old 0 s

/-- `str.replace(old, "")`. -/
def remove (old s : List Char) : List Char := removeFrom old 0 s

lemma removeFrom_length_append (old a b : List Char) :
    removeFrom old a.length (a ++ b) = remove old b := by
  induction a with
  | nil => rfl
  | cons c a ih => rw [List.length_cons, List.cons_append, removeFrom, ih]

/-- What does not hold the first character of the substring stays. -/
lemma remove_append {o : Char} {old a : List Char} (h : o ∉ a) (b : List Char) :
    remove (o :: old) (a ++ b) = a ++ remove (o :: old) b := by
  induction a with
  | nil => rfl
  | cons c a ih =>
      rw [List.mem_cons, not_or] at h
      rw [remove, List.cons_append, removeFrom, if_neg]
      · rw [List.cons_append]
        exact congrArg _ (ih h.2)
      · simp [h.1]

lemma remove_of_not_mem {o : Char} {old s : List Char} (h : o ∉ s) : remove (o :: old) s = s := by
  simpa [remove, removeFrom] using @remove_append o old s h []

/-- An occurrence at the front is removed. -/
lemma remove_self_append (o : Char) (old b : List Char) :
    remove (o :: old) (o :: old ++ b) = remove (o :: old) b := by
  have hpre : (o :: old).isPrefixOf (o :: (old ++ b)) = true :=
    List.isPrefixOf_iff_prefix.mpr ⟨b, rfl⟩
  calc remove (o :: old) (o :: old ++ b)
      = removeFrom (o :: old) old.length (old ++ b) := by
        rw [remove, List.cons_append, removeFrom, if_pos hpre, List.length_cons,
          Nat.add_sub_cancel]
    _ = remove (o :: old) b := removeFrom_length_append (o :: old) old b

end Text
