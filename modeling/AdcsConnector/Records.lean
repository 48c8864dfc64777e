/-
The dumps of records: what the line machines of `parse_template_data`,
`parse_authority_data` and `parse_identified_certificates` have in common.

* `RecordFormat.step_of_isEntry`, `step_of_unrecognised`, `step_rstrip`: what a
  line does, by its label;
* `Reading`: how a format reads its values and builds a record of them; the
  machine overlays the values read (`Reading.foldlM_entryStep`);
* `templateReading`, `identifiedReading`, `authorityReading`: the readings of the
  three parsers;
* `parseAuthorityData_eq`: the parse of flags whose texts alone decide their
  values.
-/
import AdcsConnector.DumpParser
import AdcsConnector.Library.Blocks
import AdcsConnector.Library.Dict

namespace AdcsConnector

open Text Blocks

/-! ### Lines by their labels -/

/-- A label without whitespace and colons. -/
def plainLabel (label : String) : Bool :=
  label ≠ "" && label.toList.all fun c => !isSpace c && c ≠ ':'

lemma not_isSpace_of_plainLabel {label : String} (h : plainLabel label) {c : Char}
    (hc : c ∈ label.toList) : ¬ isSpace c := by
  rw [plainLabel, Bool.and_eq_true, List.all_eq_true] at h
  have hchar := h.2 c hc
  rw [Bool.and_eq_true] at hchar
  simpa using hchar.1

lemma colon_not_mem_of_plainLabel {label : String} (h : plainLabel label) :
    ':' ∉ label.toList := by
  intro hmem
  rw [plainLabel, Bool.and_eq_true, List.all_eq_true] at h
  simpa using h.2 ':' hmem

/-- A label begins with a character that is not whitespace. -/
lemma exists_cons_of_plainLabel {label : String} (h : plainLabel label) :
    ∃ c s, label.toList = c :: s ∧ ¬ isSpace c := by
  cases hl : label.toList with
  | nil =>
      rw [plainLabel, String.toList_eq_nil_iff.mp hl] at h
      simp at h
  | cons c s =>
      exact ⟨c, s, rfl, not_isSpace_of_plainLabel h (hl ▸ List.mem_cons_self)⟩

/-- A line begins with one label only. -/
lemma label_unique {label label' : String} (h : plainLabel label) (h' : plainLabel label')
    {line : List Char} (hl : (label ++ " ").toList <+: line)
    (hl' : (label' ++ " ").toList <+: line) : label = label' := by
  have htake : ∀ {label : String}, plainLabel label → (label ++ " ").toList <+: line →
      line.takeWhile (fun c => !isSpace c) = label.toList := by
    rintro label h ⟨rest, rfl⟩
    have hword : ∀ c ∈ label.toList, (!isSpace c) = true := fun c hc => by
      simpa using not_isSpace_of_plainLabel h hc
    have hend : (" ".toList ++ rest).takeWhile (fun c => !isSpace c) = [] := by simp [isSpace]
    rw [String.toList_append, List.append_assoc, List.takeWhile_append_of_pos hword, hend,
      List.append_nil]
  exact String.toList_inj.mp ((htake h hl).symm.trans (htake h' hl'))

/-- Only a line with a colon has a value. -/
lemma colon_mem_of_getValueFromLine {line value : List Char}
    (h : getValueFromLine line = .ok value) : ':' ∈ line := by
  by_contra hmem
  have hnone : ∀ s : List Char, ':' ∉ s → partition ':' s = none := by
    intro s
    induction s with
    | nil => exact fun _ => rfl
    | cons c s ih =>
        intro hs
        rw [List.mem_cons, not_or] at hs
        rw [partition, if_neg fun heq => hs.1 heq.symm, ih hs.2]
        rfl
  rw [getValueFromLine, hnone line hmem] at h
  cases h

/-- Whitespace at the end of a line is not part of its value. -/
lemma getValueFromLine_rstrip {line : List Char} (h : ':' ∈ line) :
    getValueFromLine (rstrip line) = getValueFromLine line := by
  obtain ⟨a, b, rfl, ha⟩ := List.eq_append_cons_of_mem h
  have hcolon : ¬ isSpace ':' := by decide
  have hblank : ¬ Blank (':' :: b) := fun hb => hcolon (hb ':' List.mem_cons_self)
  rw [rstrip_append_of_not_blank hblank, rstrip_cons hcolon, getValueFromLine, getValueFromLine,
    partition_append ha, partition_append ha]
  exact congrArg _ (strip_rstrip b)

/-- A labelled line stays one when its end is stripped. -/
lemma begins_rstrip_iff {label : String} (hlabel : plainLabel label) {line : List Char}
    (h : ':' ∈ line) :
    (label ++ " ").toList <+: rstrip line ↔ (label ++ " ").toList <+: line := by
  refine ⟨fun hl => hl.trans (rstrip_isPrefix line), fun hl => ?_⟩
  obtain ⟨a, b, rfl, ha⟩ := List.eq_append_cons_of_mem h
  have hcolon : ¬ isSpace ':' := by decide
  have hblank : ¬ Blank (':' :: b) := fun hb => hcolon (hb ':' List.mem_cons_self)
  have hla : (label ++ " ").toList <+: a := by
    refine List.prefix_of_prefix_length_le hl (List.prefix_append a _) ?_
    by_contra hlt
    have hsub : a ++ [':'] <+: (label ++ " ").toList := by
      refine List.prefix_of_prefix_length_le ⟨b, by simp⟩ hl ?_
      rw [List.length_append, List.length_singleton]
      omega
    have hmem : ':' ∈ (label ++ " ").toList := hsub.subset (by simp)
    rw [String.toList_append, List.mem_append] at hmem
    rcases hmem with hmem | hmem
    · exact colon_not_mem_of_plainLabel hlabel hmem
    · exact absurd hmem (by decide)
  rw [rstrip_append_of_not_blank hblank]
  exact hla.trans (List.prefix_append a _)

/-- A completing label that can only be the last is the last. -/
lemma exists_concat_of_completing {entries : List (String × String)} {completing : String}
    (hmem : completing ∈ Dict.keys entries)
    (hlast : ∀ entry ∈ entries.dropLast, entry.1 ≠ completing) :
    ∃ rest value, entries = rest ++ [(completing, value)] ∧ completing ∉ Dict.keys rest := by
  have hne : entries ≠ [] := by
    rintro rfl
    simp [Dict.keys] at hmem
  have hsplit := List.dropLast_append_getLast hne
  obtain ⟨entry, hentry, rfl⟩ := List.mem_map.mp hmem
  rw [← hsplit, List.mem_append, List.mem_singleton] at hentry
  have hlast' : entry = entries.getLast hne :=
    hentry.resolve_left fun hdrop => hlast entry hdrop rfl
  refine ⟨entries.dropLast, entry.2, ?_, fun hkeys => ?_⟩
  · rw [Prod.mk.eta, hlast', hsplit]
  · obtain ⟨entry', hentry', heq⟩ := List.mem_map.mp hkeys
    exact hlast entry' hentry' heq

/-! ### Steps by labels -/

namespace RecordFormat

variable {ρ : Type} (fmt : RecordFormat ρ)

/-- The labels of a format, in the order they are tested in. -/
def labels : List String := fmt.fields.map Prod.fst

/-- Every label is plain. -/
def Plain : Prop := ∀ label ∈ fmt.labels, plainLabel label

instance : Decidable fmt.Plain :=
  inferInstanceAs (Decidable (∀ label ∈ fmt.labels, plainLabel label))

/-- One labelled value. -/
def entryStep (st : ρ × List ρ) (entry : String × String) : Except PyError (ρ × List ρ) :=
  match fmt.fields.find? fun f => f.1 = entry.1 with
  | none => .ok st
  | some (label, assign) => do
      let st' ← (assign st.1 entry.2).run st.2
      if label = fmt.completing then return (fmt.empty, st'.2 ++ [st'.1])
      else return st'

variable {fmt}

/-- A line without a label of the format is passed over. -/
lemma step_of_unrecognised {line : List Char} (h : Unrecognised fmt.labels line)
    (st : ρ × List ρ) : fmt.step st line = .ok st := by
  have hfind : (fmt.fields.find? fun f => startsWith line (f.1 ++ " ")) = none := by
    rw [List.find?_eq_none]
    intro f hf
    rw [startsWith_iff]
    exact h f.1 (List.mem_map_of_mem hf)
  rw [step, hfind]

lemma unrecognised_of_blank (hplain : fmt.Plain) {line : List Char} (h : Blank line) :
    Unrecognised fmt.labels line := by
  intro label hlabel hl
  obtain ⟨c, s, hcs, hc⟩ := exists_cons_of_plainLabel (hplain label hlabel)
  refine hc (h c (hl.subset ?_))
  rw [String.toList_append, hcs]
  exact List.mem_cons_self

/-- A labelled line does what its label and value do. -/
lemma step_of_isEntry (hplain : fmt.Plain) {entry : String × String} {line : List Char}
    (hlabel : entry.1 ∈ fmt.labels) (h : IsEntry entry.1 entry.2.toList line) (st : ρ × List ρ) :
    fmt.step st line = fmt.entryStep st entry := by
  have hfind : (fmt.fields.find? fun f => startsWith line (f.1 ++ " ")) =
      fmt.fields.find? fun f => f.1 = entry.1 := by
    refine List.find?_congr fun f hf => ?_
    have hf' := hplain f.1 (List.mem_map_of_mem hf)
    by_cases heq : f.1 = entry.1
    · rw [heq, startsWith_iff.mpr h.1]
      simp
    · have hno : startsWith line (f.1 ++ " ") = false :=
        startsWith_eq_false.mpr fun hl => heq (label_unique hf' (hplain _ hlabel) hl h.1)
      rw [hno]
      simp [heq]
  rw [step, hfind, entryStep, h.2]
  cases fmt.fields.find? fun f => f.1 = entry.1 with
  | none => rfl
  | some f => simp [bind, Except.bind]

/-- A labelled line without a value raises. -/
lemma step_of_no_value {label : String} {line : List Char} {e : PyError}
    (hlabel : label ∈ fmt.labels) (hpre : (label ++ " ").toList <+: line)
    (h : getValueFromLine line = .error e) (st : ρ × List ρ) : fmt.step st line = .error e := by
  rw [step, h]
  cases hfind : fmt.fields.find? fun f => startsWith line (f.1 ++ " ") with
  | some f => rfl
  | none =>
      obtain ⟨f, hf, rfl⟩ := List.mem_map.mp hlabel
      exact absurd (startsWith_iff.mpr hpre) (List.find?_eq_none.mp hfind f hf)

/-- Whitespace at the end of a line does not matter, if a labelled line has a
colon. -/
lemma step_rstrip (hplain : fmt.Plain) {line : List Char}
    (h : Unrecognised fmt.labels line ∨ ':' ∈ line) (st : ρ × List ρ) :
    fmt.step st (rstrip line) = fmt.step st line := by
  rcases h with h | h
  · rw [step_of_unrecognised h, step_of_unrecognised (h.mono (rstrip_isPrefix line))]
  · have hfind : (fmt.fields.find? fun f => startsWith (rstrip line) (f.1 ++ " ")) =
        fmt.fields.find? fun f => startsWith line (f.1 ++ " ") := by
      refine List.find?_congr fun f hf => ?_
      rw [Bool.eq_iff_iff, startsWith_iff, startsWith_iff]
      exact begins_rstrip_iff (hplain f.1 (List.mem_map_of_mem hf)) h
    rw [step, step, hfind, getValueFromLine_rstrip h]

/-- The parse of a text whose labelled lines have values. -/
lemma parse_of_lines (hplain : fmt.Plain) {text : String} {ls : List (List Char)}
    (htext : text.toList = unlines ls) (hnewline : ∀ l ∈ ls, '\n' ∉ l)
    (hstart : StartsUnindented ls) (hcolon : ∀ l ∈ ls, Unrecognised fmt.labels l ∨ ':' ∈ l)
    {inputData : Response} (hout : inputData.stdOut = text.toUTF8) :
    fmt.parse inputData = (ls.foldlM fmt.step (fmt.empty, [])).map Prod.snd := by
  have hfold := foldlM_lines_strip
    (fun l hl st => step_of_unrecognised (unrecognised_of_blank hplain hl) st)
    (fun l hl st => step_rstrip hplain (hcolon l hl) st) hnewline hstart (fmt.empty, [])
  rw [parse, dumpLines, hout, decode_toUTF8]
  simp only [Except.map, bind, Except.bind, pure, Except.pure, htext]
  rw [hfold]

end RecordFormat

/-! ### Values of records -/

/-- How a format reads the values of its labels, and builds a record of them; a
label without a value is the empty string. -/
structure Reading {ρ : Type} (fmt : RecordFormat ρ) where
  read : String → String → Except PyError PyValue
  build : (String → PyValue) → ρ
  empty_eq : fmt.empty = build fun _ => .str ""
  assign_eq : ∀ f ∈ fmt.fields, ∀ σ value,
    f.2 (build σ) value =
      StateT.lift ((read f.1 value).map fun a => build (Function.update σ f.1 a))
  build_congr : ∀ σ τ, (∀ label ∈ fmt.labels, σ label = τ label) → build σ = build τ
  build_inj : ∀ σ τ,
    (∀ label ∈ fmt.labels, σ label = .str "" ∨ ∃ value, read label value = .ok (σ label)) →
    (∀ label ∈ fmt.labels, τ label = .str "" ∨ ∃ value, read label value = .ok (τ label)) →
    build σ = build τ → ∀ label ∈ fmt.labels, σ label = τ label

namespace Reading

variable {ρ : Type} {fmt : RecordFormat ρ} (rd : Reading fmt)

/-- The value of an entry that can be read. -/
def valueOf (entry : String × String) : PyValue :=
  match rd.read entry.1 entry.2 with
  | .ok a => a
  | .error _ => .none

/-- The values `σ`, overlaid by those of the entries. -/
def overlay (σ : String → PyValue) (entries : List (String × String)) : String → PyValue :=
  entries.foldl (fun σ entry => Function.update σ entry.1 (rd.valueOf entry)) σ

/-- Every value can be read. -/
def AllRead (entries : List (String × String)) : Prop :=
  ∀ entry ∈ entries, rd.read entry.1 entry.2 = .ok (rd.valueOf entry)

variable {rd}

lemma valueOf_eq {entry : String × String} {a : PyValue}
    (h : rd.read entry.1 entry.2 = .ok a) : rd.valueOf entry = a := by
  rw [valueOf, h]

lemma read_valueOf_iff {entry : String × String} :
    rd.read entry.1 entry.2 = .ok (rd.valueOf entry) ↔ ∃ a, rd.read entry.1 entry.2 = .ok a := by
  constructor
  · intro h
    exact ⟨_, h⟩
  · rintro ⟨a, h⟩
    rw [h, valueOf_eq h]

/-- A label not among the entries keeps its value. -/
lemma overlay_of_not_mem {σ : String → PyValue} {entries : List (String × String)} {label : String}
    (h : label ∉ Dict.keys entries) : rd.overlay σ entries label = σ label := by
  induction entries generalizing σ with
  | nil => rfl
  | cons entry entries ih =>
      rw [Dict.keys, List.map_cons, List.mem_cons, not_or] at h
      calc rd.overlay σ (entry :: entries) label
          = rd.overlay (Function.update σ entry.1 (rd.valueOf entry)) entries label := rfl
        _ = Function.update σ entry.1 (rd.valueOf entry) label := ih h.2
        _ = σ label := Function.update_of_ne h.1 ..

/-- With distinct labels, a label among the entries has the value of its entry. -/
lemma overlay_of_mem {σ : String → PyValue} {entries : List (String × String)}
    (hnodup : (Dict.keys entries).Nodup) {entry : String × String} (h : entry ∈ entries) :
    rd.overlay σ entries entry.1 = rd.valueOf entry := by
  induction entries generalizing σ with
  | nil => simp at h
  | cons entry' entries ih =>
      rw [Dict.keys, List.map_cons, List.nodup_cons] at hnodup
      rcases List.mem_cons.mp h with rfl | h
      · calc rd.overlay σ (entry :: entries) entry.1
            = rd.overlay (Function.update σ entry.1 (rd.valueOf entry)) entries entry.1 := rfl
          _ = Function.update σ entry.1 (rd.valueOf entry) entry.1 := overlay_of_not_mem hnodup.1
          _ = rd.valueOf entry := Function.update_self ..
      · exact ih hnodup.2 h

/-- One entry changes the value of its label, and completes the record with the
completing label. -/
lemma entryStep_eq {σ : String → PyValue} {records : List ρ} {entry : String × String}
    (hlabel : entry.1 ∈ fmt.labels) :
    fmt.entryStep (rd.build σ, records) entry = (rd.read entry.1 entry.2).map fun a =>
      if entry.1 = fmt.completing then
        (fmt.empty, records ++ [rd.build (Function.update σ entry.1 a)])
      else (rd.build (Function.update σ entry.1 a), records) := by
  cases hfind : fmt.fields.find? fun f => f.1 = entry.1 with
  | none =>
      obtain ⟨f, hf, heq⟩ := List.mem_map.mp hlabel
      have hno := List.find?_eq_none.mp hfind f hf
      simp [heq] at hno
  | some f =>
      have hf : f.1 = entry.1 := by simpa using List.find?_some hfind
      have hassign := rd.assign_eq f (List.mem_of_find?_eq_some hfind) σ entry.2
      rw [RecordFormat.entryStep, hfind]
      simp only [hassign, hf]
      cases rd.read entry.1 entry.2 with
      | error e => rfl
      | ok a =>
          by_cases hcomplete : entry.1 = fmt.completing <;> simp [hcomplete, Except.map, bind,
            Except.bind, pure, Except.pure]

/-- Entries without the completing label are overlaid. -/
lemma foldlM_entryStep {σ : String → PyValue} {records : List ρ}
    {entries : List (String × String)} (hlabels : ∀ entry ∈ entries, entry.1 ∈ fmt.labels)
    (hread : rd.AllRead entries) (hcompleting : fmt.completing ∉ Dict.keys entries) :
    entries.foldlM fmt.entryStep (rd.build σ, records) =
      .ok (rd.build (rd.overlay σ entries), records) := by
  induction entries generalizing σ with
  | nil => rfl
  | cons entry entries ih =>
      rw [Dict.keys, List.map_cons, List.mem_cons, not_or] at hcompleting
      rw [AllRead, List.forall_mem_cons] at hread
      rw [List.forall_mem_cons] at hlabels
      have hstep : fmt.entryStep (rd.build σ, records) entry =
          .ok (rd.build (Function.update σ entry.1 (rd.valueOf entry)), records) := by
        rw [entryStep_eq hlabels.1, hread.1]
        simp [Except.map, Ne.symm hcompleting.1]
      rw [Rows.foldlM_cons_of_ok hstep]
      exact ih hlabels.2 hread.2 hcompleting.2

/-- The completing label makes a record of the values so far. -/
lemma foldlM_entryStep_completing {σ : String → PyValue} {records : List ρ}
    {entries : List (String × String)} {value : String}
    (hlabels : ∀ entry ∈ entries, entry.1 ∈ fmt.labels) (hlabel : fmt.completing ∈ fmt.labels)
    (hread : rd.AllRead (entries ++ [(fmt.completing, value)]))
    (hcompleting : fmt.completing ∉ Dict.keys entries) :
    (entries ++ [(fmt.completing, value)]).foldlM fmt.entryStep (rd.build σ, records) =
      .ok (rd.build (fun _ => .str ""),
        records ++ [rd.build (rd.overlay σ (entries ++ [(fmt.completing, value)]))]) := by
  rw [AllRead, List.forall_mem_append] at hread
  have hlast : fmt.entryStep (rd.build (rd.overlay σ entries), records) (fmt.completing, value) =
      .ok (rd.build (fun _ => .str ""),
        records ++ [rd.build (rd.overlay σ (entries ++ [(fmt.completing, value)]))]) := by
    rw [@entryStep_eq _ _ rd _ _ _ hlabel, hread.2 _ List.mem_cons_self, overlay, overlay,
      List.foldl_append, rd.empty_eq]
    simp [Except.map]
  rw [Rows.foldlM_append_of_ok (foldlM_entryStep hlabels hread.1 hcompleting),
    Rows.foldlM_cons_of_ok hlast]
  rfl

/-- An entry that cannot be read stops the machine. -/
lemma allRead_of_foldlM {σ : String → PyValue} {records : List ρ}
    {entries : List (String × String)} (hlabels : ∀ entry ∈ entries, entry.1 ∈ fmt.labels)
    {st : ρ × List ρ} (h : entries.foldlM fmt.entryStep (rd.build σ, records) = .ok st) :
    rd.AllRead entries := by
  induction entries generalizing σ records with
  | nil => simp [AllRead]
  | cons entry entries ih =>
      rw [List.forall_mem_cons] at hlabels
      rw [List.foldlM_cons, entryStep_eq hlabels.1] at h
      cases hread : rd.read entry.1 entry.2 with
      | error e =>
          rw [hread] at h
          cases h
      | ok a =>
          rw [hread, rd.empty_eq] at h
          refine List.forall_mem_cons.mpr ⟨read_valueOf_iff.mpr ⟨a, hread⟩, ?_⟩
          by_cases hcomplete : entry.1 = fmt.completing
          · exact ih hlabels.2 (by simpa [Except.map, hcomplete, bind, Except.bind] using h)
          · exact ih hlabels.2 (by simpa [Except.map, hcomplete, bind, Except.bind] using h)

end Reading

/-! ### The three formats -/

/-- The text of a value that is a string. -/
def PyValue.text : PyValue → String
  | .str s => s
  | _ => ""

/-- The values of most labels are strings as they stand. -/
def readText (_label value : String) : Except PyError PyValue := .ok (.str value)

lemma exists_str_of_readText {label : String} {a : PyValue}
    (h : a = .str "" ∨ ∃ value, readText label value = .ok a) : ∃ s, a = .str s := by
  rcases h with rfl | ⟨value, h⟩
  · exact ⟨"", rfl⟩
  · exact ⟨value, (Except.ok.inj h).symm⟩

/-- `TemplateData` by its labels. -/
def templateReading : Reading templateFormat where
  read := readText
  build σ := ⟨(σ "Name").text, (σ "DisplayName").text, (σ "SchemaVersion").text,
    (σ "Version").text, (σ "OID").text⟩
  empty_eq := rfl
  assign_eq := by
    intro f hf σ value
    fin_cases hf <;> rfl
  build_congr := by
    intro σ τ h
    simp only [RecordFormat.labels, templateFormat, List.map_cons, List.map_nil,
      List.forall_mem_cons] at h
    rw [h.1, h.2.1, h.2.2.1, h.2.2.2.1, h.2.2.2.2.1]
  build_inj := by
    intro σ τ hσ hτ heq label hlabel
    obtain ⟨s, hs⟩ := exists_str_of_readText (hσ label hlabel)
    obtain ⟨t, ht⟩ := exists_str_of_readText (hτ label hlabel)
    simp only [TemplateData.mk.injEq] at heq
    have htext : (σ label).text = (τ label).text := by
      fin_cases hlabel
      · exact heq.1
      · exact heq.2.1
      · exact heq.2.2.1
      · exact heq.2.2.2.1
      · exact heq.2.2.2.2
    rw [hs, ht] at htext ⊢
    exact congrArg _ htext

/-- `IdentifiedCertificate` by its labels. -/
def identifiedReading : Reading identifiedFormat where
  read := readText
  build σ := ⟨(σ "CertificateTemplate").text, (σ "SerialNumber").text, (σ "ConfigString").text⟩
  empty_eq := rfl
  assign_eq := by
    intro f hf σ value
    fin_cases hf <;> rfl
  build_congr := by
    intro σ τ h
    simp only [RecordFormat.labels, identifiedFormat, List.map_cons, List.map_nil,
      List.forall_mem_cons] at h
    rw [h.1, h.2.1, h.2.2.1]
  build_inj := by
    intro σ τ hσ hτ heq label hlabel
    obtain ⟨s, hs⟩ := exists_str_of_readText (hσ label hlabel)
    obtain ⟨t, ht⟩ := exists_str_of_readText (hτ label hlabel)
    simp only [IdentifiedCertificate.mk.injEq] at heq
    have htext : (σ label).text = (τ label).text := by
      fin_cases hlabel
      · exact heq.2.1
      · exact heq.1
      · exact heq.2.2
    rw [hs, ht] at htext ⊢
    exact congrArg _ htext

/-- The labels of `parse_authority_data`. -/
def authorityLabels : List String :=
  ["Name", "DisplayName", "ComputerName", "ConfigString", "Type", "IsEnterprise", "IsRoot",
    "IsAccessible", "ServiceStatus"]

/-- `parse_authority_data` where the texts alone decide the values of the flags. -/
def textFormat (flag : String → Except PyError PyValue) : RecordFormat AuthorityData :=
  authorityFormat fun _ text => StateT.lift (flag text)

lemma labels_textFormat (flag : String → Except PyError PyValue) :
    (textFormat flag).labels = authorityLabels := rfl

/-- The labels of `parse_authority_data` whose values go through `eval`. -/
def flagLabels : List String := ["IsEnterprise", "IsRoot", "IsAccessible"]

/-- The values of the flags are evaluated. -/
def readAuthority (flag : String → Except PyError PyValue) (label value : String) :
    Except PyError PyValue :=
  if label ∈ flagLabels then flag value else readText label value

/-- `AuthorityData` by its labels. -/
def authorityReading (flag : String → Except PyError PyValue) :
    Reading (textFormat flag) where
  read := readAuthority flag
  build σ := ⟨(σ "Name").text, (σ "DisplayName").text, (σ "ComputerName").text,
    (σ "ConfigString").text, (σ "Type").text, σ "IsEnterprise", σ "IsRoot", σ "IsAccessible",
    σ "ServiceStatus"⟩
  empty_eq := rfl
  assign_eq := by
    intro f hf σ value
    have hflag : ∀ g : PyValue → AuthorityData,
        g <$> (StateT.lift (flag value) : StateT (List AuthorityData) _ _) =
          StateT.lift ((flag value).map g) := by
      intro g
      cases flag value <;> rfl
    fin_cases hf
    · rfl
    · rfl
    · rfl
    · rfl
    · rfl
    · exact hflag _
    · exact hflag _
    · exact hflag _
    · rfl
  build_congr := by
    intro σ τ h
    simp only [labels_textFormat, authorityLabels, List.forall_mem_cons] at h
    rw [h.1, h.2.1, h.2.2.1, h.2.2.2.1, h.2.2.2.2.1, h.2.2.2.2.2.1, h.2.2.2.2.2.2.1,
      h.2.2.2.2.2.2.2.1, h.2.2.2.2.2.2.2.2.1]
  build_inj := by
    intro σ τ hσ hτ heq label hlabel
    rw [labels_textFormat] at hσ hτ hlabel
    simp only [AuthorityData.mk.injEq] at heq
    have htext : ∀ {label}, label ∈ authorityLabels → label ∉ flagLabels →
        (σ label).text = (τ label).text → σ label = τ label := by
      intro label hlabel hflag htext
      have hσ := hσ label hlabel
      have hτ := hτ label hlabel
      simp only [readAuthority, hflag, if_false] at hσ hτ
      obtain ⟨s, hs⟩ := exists_str_of_readText hσ
      obtain ⟨t, ht⟩ := exists_str_of_readText hτ
      rw [hs, ht] at htext ⊢
      exact congrArg _ htext
    fin_cases hlabel
    · exact htext (by decide) (by decide) heq.1
    · exact htext (by decide) (by decide) heq.2.1
    · exact htext (by decide) (by decide) heq.2.2.1
    · exact htext (by decide) (by decide) heq.2.2.2.1
    · exact htext (by decide) (by decide) heq.2.2.2.2.1
    · exact heq.2.2.2.2.2.1
    · exact heq.2.2.2.2.2.2.1
    · exact heq.2.2.2.2.2.2.2.1
    · exact heq.2.2.2.2.2.2.2.2

lemma templateFormat_plain : templateFormat.Plain := by
  decide

lemma identifiedFormat_plain : identifiedFormat.Plain := by
  decide

lemma authorityFormat_plain
    (f : AuthorityData → String → StateT (List AuthorityData) (Except PyError) PyValue) :
    (authorityFormat f).Plain :=
  (by decide : ∀ label ∈ authorityLabels, plainLabel label)

/-! ### Flags in their frame -/

/-- The text that a line hands to `eval`. -/
def flagTexts (line : List Char) : List String :=
  if flagLabels.any fun label => startsWith line (label ++ " ") then
    match getValueFromLine line with
    | .ok value => [String.ofList value]
    | .error _ => []
  else []

variable {line : List Char}

lemma mem_flagTexts {text : String} :
    text ∈ flagTexts line ↔ ∃ label ∈ flagLabels, IsEntry label text.toList line := by
  rw [flagTexts]
  split_ifs with hany
  · obtain ⟨label, hlabel, hpre⟩ := List.any_eq_true.mp hany
    rw [startsWith_iff] at hpre
    cases hvalue : getValueFromLine line with
    | error e =>
        simp only [List.not_mem_nil, false_iff]
        rintro ⟨label, -, -, hentry⟩
        rw [hvalue] at hentry
        cases hentry
    | ok value =>
        rw [List.mem_singleton]
        constructor
        · rintro rfl
          exact ⟨label, hlabel, hpre, by rw [hvalue, String.toList_ofList]⟩
        · rintro ⟨label', -, -, hentry⟩
          rw [hvalue] at hentry
          rw [Except.ok.inj hentry, String.ofList_toList]
  · simp only [List.not_mem_nil, false_iff]
    rintro ⟨label, hlabel, hpre, -⟩
    exact hany (List.any_eq_true.mpr ⟨label, hlabel, startsWith_iff.mpr hpre⟩)

/-- A line without a label of `parse_authority_data` has no flag. -/
lemma not_mem_flagTexts {text : String} (h : Unrecognised authorityLabels line) :
    text ∉ flagTexts line := by
  intro htext
  obtain ⟨label, hflag, hentry⟩ := mem_flagTexts.mp htext
  have hlabel : ∀ flag ∈ flagLabels, flag ∈ authorityLabels := by decide
  exact h label (hlabel label hflag) hentry.1

/-- The flag of a labelled line is its value. -/
lemma IsEntry.of_flagTexts {label value text : String} (hlabel : label ∈ authorityLabels)
    (h : IsEntry label value.toList line) (htext : text ∈ flagTexts line) :
    label ∈ flagLabels ∧ text = value := by
  obtain ⟨flag, hflag, hentry⟩ := mem_flagTexts.mp htext
  have hlabels : ∀ flag ∈ flagLabels, flag ∈ authorityLabels := by decide
  have hplain : ∀ label ∈ authorityLabels, plainLabel label := by decide
  obtain rfl : label = flag :=
    label_unique (hplain label hlabel) (hplain flag (hlabels flag hflag)) h.1 hentry.1
  exact ⟨hflag, String.toList_inj.mp (Except.ok.inj (hentry.2.symm.trans h.2))⟩

/-- Whitespace at the end of a line is not part of its flag. -/
lemma flagTexts_rstrip {text : String} (h : text ∈ flagTexts (rstrip line)) :
    text ∈ flagTexts line := by
  obtain ⟨label, hlabel, hpre, hvalue⟩ := mem_flagTexts.mp h
  have hcolon : ':' ∈ line :=
    (rstrip_isPrefix line).subset (colon_mem_of_getValueFromLine hvalue)
  exact mem_flagTexts.mpr ⟨label, hlabel, hpre.trans (rstrip_isPrefix line),
    (getValueFromLine_rstrip hcolon).symm.trans hvalue⟩

/-- A line is unrecognised, or begins with one of the labels. -/
lemma unrecognised_or_begins (line : List Char) : Unrecognised authorityLabels line ∨
    ∃ label ∈ authorityLabels, (label ++ " ").toList <+: line := by
  by_cases h : Unrecognised authorityLabels line
  · exact .inl h
  · refine .inr ?_
    rw [Unrecognised] at h
    push Not at h
    exact h

variable {eval : Evaluator} {flag : String → Except PyError PyValue} {inputData : Response}

/-- What a label does depends on what the evaluation of its value does. -/
lemma entryStep_authorityFormat_congr
    {f g : AuthorityData → String → StateT (List AuthorityData) (Except PyError) PyValue}
    {st : AuthorityData × List AuthorityData} {label text : String}
    (hlabel : label ∈ authorityLabels)
    (h : label ∈ flagLabels → (f st.1 text).run st.2 = (g st.1 text).run st.2) :
    (authorityFormat f).entryStep st (label, text) =
      (authorityFormat g).entryStep st (label, text) := by
  fin_cases hlabel
  · rfl
  · rfl
  · rfl
  · rfl
  · rfl
  · simp [RecordFormat.entryStep, authorityFormat, h (by decide)]
  · simp [RecordFormat.entryStep, authorityFormat, h (by decide)]
  · simp [RecordFormat.entryStep, authorityFormat, h (by decide)]
  · rfl

/-- A line does what its flag does as a text, if this leaves the records alone. -/
lemma authorityStep_eq {ls : List (List Char)} {st : AuthorityData × List AuthorityData}
    (h : ∀ text ∈ flagTexts line,
      eval ⟨inputData, ls, line, st.1, st.2⟩ text =
        (flag text).map (Locals.keep ⟨inputData, ls, line, st.1, st.2⟩)) :
    authorityStep eval inputData ls st line = (textFormat flag).step st line := by
  rw [authorityStep, textFormat]
  rcases unrecognised_or_begins line with hunrec | ⟨label, hlabel, hpre⟩
  · have hstep : ∀ f, (authorityFormat f).step st line = .ok st := fun f =>
      RecordFormat.step_of_unrecognised (by exact hunrec) st
    rw [hstep, hstep]
  cases hvalue : getValueFromLine line with
  | error e =>
      have hstep : ∀ f, (authorityFormat f).step st line = .error e := fun f =>
        RecordFormat.step_of_no_value (by exact hlabel) hpre hvalue st
      rw [hstep, hstep]
  | ok value =>
      have hentry : IsEntry label (String.ofList value).toList line :=
        ⟨hpre, by rw [hvalue, String.toList_ofList]⟩
      have hstep : ∀ f, (authorityFormat f).step st line =
          (authorityFormat f).entryStep st (label, String.ofList value) := fun f =>
        @RecordFormat.step_of_isEntry _ (authorityFormat f) (authorityFormat_plain f)
          (label, String.ofList value) line hlabel hentry st
      rw [hstep, hstep]
      refine entryStep_authorityFormat_congr hlabel fun hflag => ?_
      refine (congrArg (Except.map fun e => (e.value, e.result))
        (h _ (mem_flagTexts.mpr ⟨label, hflag, hentry⟩))).trans ?_
      cases flag (String.ofList value) <;> rfl

/-- The flags of an output are those of its lines. -/
lemma exists_flagTexts_of_dumpLines {text : String} {ls ls' : List (List Char)}
    (htext : text.toList = unlines ls) (hnewline : ∀ l ∈ ls, '\n' ∉ l)
    (hstart : StartsUnindented ls) (hout : inputData.stdOut = text.toUTF8)
    (hls' : dumpLines inputData = .ok ls') (hline : line ∈ ls') {value : String}
    (hvalue : value ∈ flagTexts line) : ∃ l ∈ ls, value ∈ flagTexts l := by
  rw [dumpLines, hout, decode_toUTF8] at hls'
  obtain rfl := Except.ok.inj hls'
  simp only [htext] at hline
  rcases mem_lines_strip hnewline hstart hline with rfl | ⟨l, hl, rfl | rfl⟩
  · simp [flagTexts, flagLabels, startsWith] at hvalue
  · exact ⟨line, hl, hvalue⟩
  · exact ⟨l, hl, flagTexts_rstrip hvalue⟩

/-- The parse of an output whose flags are decided by their texts, and leave the
records alone. -/
lemma parseAuthorityData_eq
    (h : ∀ ls, dumpLines inputData = .ok ls → ∀ line ∈ ls, ∀ text ∈ flagTexts line,
      ∀ frame, eval frame text = (flag text).map frame.keep) :
    parseAuthorityData eval inputData = (textFormat flag).parse inputData := by
  rw [parseAuthorityData, RecordFormat.parse]
  cases hls : dumpLines inputData with
  | error e => rfl
  | ok ls =>
      have hfold : ∀ ls' : List (List Char), (∀ line ∈ ls', line ∈ ls) → ∀ st,
          ls'.foldlM (authorityStep eval inputData ls) st =
            ls'.foldlM (textFormat flag).step st := by
        intro ls'
        induction ls' with
        | nil => exact fun _ _ => rfl
        | cons line ls' ih =>
            intro hsub st
            rw [List.forall_mem_cons] at hsub
            rw [List.foldlM_cons, List.foldlM_cons,
              authorityStep_eq fun text htext => h ls hls line hsub.1 text htext _]
            exact congrArg _ (funext fun st' => ih hsub.2 st')
      simp only [bind, Except.bind]
      rw [hfold ls fun _ hline => hline]
      rfl

end AdcsConnector
