/-
`Format-List` and the dumps of records: the parsers undo the rendering.

* `RendersRecords`: the rows rendered as lines `label : value`, the completing
  label of a row last, with any other lines in between;
* `RendersRecords.parse_eq`: the parser of a format returns the rows;
* `parse_formatList`: the three parsers of records on every rendering;
* `rendersRecords_formatRecords`: every list of single-line rows has one.
-/
import AdcsConnector.Records

namespace AdcsConnector

open Text Blocks

variable {ρ : Type}

/-! ### Rendered records -/

/-- The labelled values of a row in an order that ends with the completing
label. -/
def IsRow (completing : String) (fields : ρ → List (String × String)) (row : ρ)
    (entries : List (String × String)) : Prop :=
  entries.Perm (fields row) ∧ ∀ entry ∈ entries.dropLast, entry.1 ≠ completing

/-- The text of a dump of records: the rows in order, each a line for every
label, with lines of other labels, continuation lines and blank lines anywhere.
The first line that is not blank is unindented. Carriage returns count as
trailing whitespace of their lines. -/
inductive RendersRecords (labels : List String) (completing : String)
    (fields : ρ → List (String × String)) (rows : List ρ) (text : String) : Prop
  | mk {entries : List (List (String × String))} {ls : List (List Char)}
      (hentries : List.Forall₂ (IsRow completing fields) rows entries)
      (hlines : Interspersed (fun entry l => IsField entry.1 entry.2.toList l)
        (Unrecognised labels) entries.flatten ls)
      (hstart : StartsUnindented ls) (hnewline : ∀ l ∈ ls, '\n' ∉ l)
      (htext : text.toList = unlines ls)

/-- The labelled values of a template. -/
def TemplateData.fields (t : TemplateData) : List (String × String) :=
  [("Name", t.name), ("DisplayName", t.displayName), ("SchemaVersion", t.schemaVersion),
    ("Version", t.version), ("OID", t.oid)]

/-- The labelled values of an identified certificate. -/
def IdentifiedCertificate.fields (c : IdentifiedCertificate) : List (String × String) :=
  [("CertificateTemplate", c.certificateTemplate), ("SerialNumber", c.serialNumber),
    ("ConfigString", c.configString)]

/-- How PowerShell prints a boolean, or a text. -/
def PyValue.printed : PyValue → String
  | .bool true => "True"
  | .bool false => "False"
  | a => a.text

/-- The labelled values of a certification authority. -/
def AuthorityData.fields (ca : AuthorityData) : List (String × String) :=
  [("Name", ca.name), ("DisplayName", ca.displayName), ("ComputerName", ca.computerName),
    ("ConfigString", ca.configString), ("Type", ca.caType),
    ("IsEnterprise", ca.isEnterprise.printed), ("IsRoot", ca.isRoot.printed),
    ("IsAccessible", ca.isAccessible.printed), ("ServiceStatus", ca.serviceStatus.printed)]

/-- A certification authority as the CA host lists it: the flags are booleans
and the status is a text. -/
structure AuthorityData.Listed (ca : AuthorityData) : Prop where
  isEnterprise : ∃ b, ca.isEnterprise = .bool b
  isRoot : ∃ b, ca.isRoot = .bool b
  isAccessible : ∃ b, ca.isAccessible = .bool b
  serviceStatus : ∃ s, ca.serviceStatus = .str s

/-! ### The machine on rendered rows -/

variable {fmt : RecordFormat ρ} {fields : ρ → List (String × String)}

/-- Overlays of the same entries agree on their labels. -/
lemma Reading.overlay_congr {rd : Reading fmt} {σ τ : String → PyValue}
    {entries entries' : List (String × String)} (hnodup : (Dict.keys entries').Nodup)
    (hperm : entries.Perm entries') {label : String} (h : label ∈ Dict.keys entries) :
    rd.overlay σ entries label = rd.overlay τ entries' label := by
  obtain ⟨entry, hentry, rfl⟩ := List.mem_map.mp h
  rw [overlay_of_mem ((hperm.map Prod.fst).nodup_iff.mpr hnodup) hentry,
    overlay_of_mem hnodup (hperm.mem_iff.mp hentry)]

/-- What a format needs to know about the rows it is to read back. -/
structure Reading.Fits (rd : Reading fmt) (fields : ρ → List (String × String)) (row : ρ) :
    Prop where
  keys : (Dict.keys (fields row)).Perm fmt.labels
  allRead : rd.AllRead (fields row)
  build : rd.build (rd.overlay (fun _ => .str "") (fields row)) = row

/-- The lines of a row add the row to the result. -/
lemma IsRow.foldlM_entryStep {rd : Reading fmt} (hnodup : fmt.labels.Nodup)
    (hcompleting : fmt.completing ∈ fmt.labels) {row : ρ} {entries : List (String × String)}
    (h : IsRow fmt.completing fields row entries) (hfits : rd.Fits fields row)
    (σ : String → PyValue) (records : List ρ) : entries.foldlM fmt.entryStep (rd.build σ, records) =
      .ok (rd.build fun _ => .str "", records ++ [row]) := by
  obtain ⟨hperm, hlast⟩ := h
  have hkeys : (Dict.keys entries).Perm fmt.labels := (hperm.map Prod.fst).trans hfits.keys
  have hnodup' : (Dict.keys (fields row)).Nodup := hfits.keys.nodup_iff.mpr hnodup
  have hread : rd.AllRead entries := fun entry hentry =>
    hfits.allRead entry (hperm.mem_iff.mp hentry)
  have hlabels : ∀ entry ∈ entries, entry.1 ∈ fmt.labels := fun entry hentry =>
    hkeys.mem_iff.mp (List.mem_map_of_mem hentry)
  have hrow : rd.build (rd.overlay σ entries) = row := by
    rw [← hfits.build]
    refine rd.build_congr _ _ fun label hlabel => ?_
    exact Reading.overlay_congr hnodup' hperm (hkeys.mem_iff.mpr hlabel)
  obtain ⟨rest, value, rfl, hrest⟩ :=
    exists_concat_of_completing (hkeys.mem_iff.mpr hcompleting) hlast
  rw [Reading.foldlM_entryStep_completing
    (fun entry hentry => hlabels entry (List.mem_append_left _ hentry)) hcompleting hread hrest,
    hrow]

/-- **The parser of a format undoes the rendering**: it returns exactly the rows
rendered, in order. -/
theorem RendersRecords.parse_eq {rd : Reading fmt} (hplain : fmt.Plain)
    (hnodup : fmt.labels.Nodup) (hcompleting : fmt.completing ∈ fmt.labels) {rows : List ρ}
    {text : String} (h : RendersRecords fmt.labels fmt.completing fields rows text)
    (hfits : ∀ row ∈ rows, rd.Fits fields row) {inputData : Response}
    (hout : inputData.stdOut = text.toUTF8) : fmt.parse inputData = .ok rows := by
  obtain ⟨hentries, hlines, hstart, hnewline, htext⟩ := h
  rename_i entries ls
  have hlabels : ∀ entry ∈ entries.flatten, entry.1 ∈ fmt.labels := by
    intro entry hentry
    obtain ⟨es, hes, hentry⟩ := List.mem_flatten.mp hentry
    obtain ⟨row, hrow, hperm, -⟩ := Rows.exists_of_forall₂_mem_right hentries hes
    exact (hfits row hrow).keys.mem_iff.mp
      ((hperm.map Prod.fst).mem_iff.mp (List.mem_map_of_mem hentry))
  have hcolon : ∀ l ∈ ls, Unrecognised fmt.labels l ∨ ':' ∈ l := by
    intro l hl
    refine (hlines.mem_cases hl).imp_right fun ⟨entry, hentry, hfield⟩ => ?_
    exact colon_mem_of_getValueFromLine
      (hfield.getValueFromLine (colon_not_mem_of_plainLabel (hplain _ (hlabels entry hentry))))
  have hfold : ls.foldlM fmt.step (fmt.empty, []) =
      entries.flatten.foldlM fmt.entryStep (fmt.empty, []) :=
    hlines.foldlM (fun l hl st => RecordFormat.step_of_unrecognised hl st)
      (fun entry hentry l hl st => RecordFormat.step_of_isEntry hplain (hlabels entry hentry)
        (hl.isEntry (colon_not_mem_of_plainLabel (hplain _ (hlabels entry hentry)))) st) _
  have hrows : ∀ σ records, ∃ σ', entries.flatten.foldlM fmt.entryStep (rd.build σ, records) =
      .ok (rd.build σ', records ++ rows) := by
    clear hlines hlabels hfold
    induction hentries with
    | nil => exact fun σ records => ⟨σ, by simp [pure, Except.pure]⟩
    | @cons row es rows entries hrow _ ih =>
        intro σ records
        rw [List.forall_mem_cons] at hfits
        obtain ⟨σ', hσ'⟩ := ih hfits.2 (fun _ => .str "") (records ++ [row])
        refine ⟨σ', ?_⟩
        rw [List.flatten_cons, Rows.foldlM_append_of_ok
          (hrow.foldlM_entryStep hnodup hcompleting hfits.1 σ records), hσ']
        simp
  obtain ⟨σ', hσ'⟩ := hrows (fun _ => .str "") []
  rw [RecordFormat.parse_of_lines hplain htext hnewline hstart hcolon hout, hfold, rd.empty_eq, hσ']
  rfl

/-! ### The three parsers -/

lemma templateReading_fits (t : TemplateData) :
    templateReading.Fits TemplateData.fields t where
  keys := .refl _
  allRead := by
    intro entry hentry
    rfl
  build := rfl

lemma identifiedReading_fits (c : IdentifiedCertificate) :
    identifiedReading.Fits IdentifiedCertificate.fields c where
  keys := List.Perm.swap ..
  allRead := by
    intro entry hentry
    rfl
  build := rfl

/-- Python's `eval` on the texts of the two booleans. -/
structure EvalsBooleans (eval : Evaluator) : Prop where
  true : ∀ frame, eval frame "True" = .ok (frame.keep (.bool true))
  false : ∀ frame, eval frame "False" = .ok (frame.keep (.bool false))

/-- The value of the text of a boolean; any other text is refused. -/
def booleanValue (value : String) : Except PyError PyValue :=
  if value = "True" then .ok (.bool true)
  else if value = "False" then .ok (.bool false)
  else .error .syntaxError

lemma booleanValue_printed (b : Bool) :
    booleanValue (PyValue.bool b).printed = .ok (.bool b) := by
  cases b <;> rfl

lemma EvalsBooleans.eval_printed {eval : Evaluator} (h : EvalsBooleans eval) (b : Bool)
    (frame : Locals) : eval frame (PyValue.bool b).printed =
      (booleanValue (PyValue.bool b).printed).map frame.keep := by
  cases b
  · exact h.false frame
  · exact h.true frame

lemma authorityReading_fits {ca : AuthorityData} (h : ca.Listed) :
    (authorityReading booleanValue).Fits AuthorityData.fields ca := by
  obtain ⟨name, displayName, computerName, configString, caType, _, _, _, _⟩ := ca
  obtain ⟨⟨enterprise, rfl⟩, ⟨root, rfl⟩, ⟨accessible, rfl⟩, ⟨status, rfl⟩⟩ := h
  have hflag : ∀ label ∈ flagLabels, ∀ b : Bool,
      readAuthority booleanValue label (PyValue.bool b).printed = .ok (.bool b) := by
    intro label hlabel b
    rw [readAuthority, if_pos hlabel, booleanValue_printed]
  have henterprise' := hflag "IsEnterprise" (by decide) enterprise
  have hroot' := hflag "IsRoot" (by decide) root
  have haccessible' := hflag "IsAccessible" (by decide) accessible
  refine ⟨.refl _, ?_, ?_⟩
  · intro entry hentry
    refine Reading.read_valueOf_iff.mpr ?_
    fin_cases hentry
    · exact ⟨_, rfl⟩
    · exact ⟨_, rfl⟩
    · exact ⟨_, rfl⟩
    · exact ⟨_, rfl⟩
    · exact ⟨_, rfl⟩
    · exact ⟨_, henterprise'⟩
    · exact ⟨_, hroot'⟩
    · exact ⟨_, haccessible'⟩
    · exact ⟨_, rfl⟩
  · let value := fun (label : String) (b : Bool) =>
      (authorityReading booleanValue).valueOf (label, (PyValue.bool b).printed)
    have hvalue : ∀ label ∈ flagLabels, ∀ b, value label b = .bool b := fun label hlabel b =>
      Reading.valueOf_eq (hflag label hlabel b)
    calc _ = AuthorityData.mk name displayName computerName configString caType
          (value "IsEnterprise" enterprise) (value "IsRoot" root)
          (value "IsAccessible" accessible) (.str status) := rfl
      _ = _ := by
        rw [hvalue "IsEnterprise" (by decide), hvalue "IsRoot" (by decide),
          hvalue "IsAccessible" (by decide)]

/-! ### Every list of rows has a rendering -/

/-- A line of `Format-List`, the label padded to the width of the widest. -/
def formatField (width : ℕ) (entry : String × String) : List Char :=
  entry.1.toList ++ List.replicate (width - entry.1.length) ' ' ++ " : ".toList ++
    entry.2.toList

/-- The text of `Format-List`, a blank line before each row. -/
def formatRecords (width : ℕ) (fields : ρ → List (String × String)) (rows : List ρ) : String :=
  String.ofList (unlines (rows.flatMap fun row => [] :: (fields row).map (formatField width)))

/-- A trimmed single-line text. -/
def IsTrimmedLine (value : String) : Prop :=
  strip value.toList = value.toList ∧ '\n' ∉ value.toList

instance (value : String) : Decidable (IsTrimmedLine value) :=
  inferInstanceAs (Decidable (_ ∧ _))

lemma isField_formatField (width : ℕ) {entry : String × String} (h : IsTrimmedLine entry.2) :
    IsField entry.1 entry.2.toList (formatField width entry) := by
  refine ⟨List.replicate (width - entry.1.length) ' ', ' ' :: entry.2.toList, ?_, ?_, ?_⟩
  · have hcomm : List.replicate (width - entry.1.length) ' ' ++ [' '] =
        ' ' :: List.replicate (width - entry.1.length) ' ' :=
      List.replicate_succ'.symm.trans List.replicate_succ
    calc formatField width entry
        = entry.1.toList ++ ((List.replicate (width - entry.1.length) ' ' ++ [' ']) ++
            (':' :: ' ' :: entry.2.toList)) := by simp [formatField]
      _ = _ := by rw [hcomm, List.cons_append]
  · exact fun c hc => List.eq_of_mem_replicate hc
  · have hspace : Blank [' '] := by decide
    rw [strip, ← List.singleton_append, lstrip_append_of_blank hspace]
    exact h.1

lemma newline_not_mem_formatField (width : ℕ) {entry : String × String}
    (hlabel : plainLabel entry.1) (h : IsTrimmedLine entry.2) :
    '\n' ∉ formatField width entry := by
  simp only [formatField, List.mem_append, not_or]
  refine ⟨⟨⟨fun hmem => ?_, fun hmem => ?_⟩, by decide⟩, h.2⟩
  · exact not_isSpace_of_plainLabel hlabel hmem (by decide)
  · exact absurd (List.eq_of_mem_replicate hmem) (by decide)

lemma unindented_formatField (width : ℕ) {entry : String × String} (hlabel : plainLabel entry.1) :
    Unindented (formatField width entry) := by
  obtain ⟨c, s, hcs, hc⟩ := exists_cons_of_plainLabel hlabel
  exact ⟨c, _, by simp only [formatField, hcs, List.cons_append, List.append_assoc]; rfl, hc⟩

/-- **Every list of rows of trimmed single-line texts has a rendering.** -/
theorem rendersRecords_formatRecords (width : ℕ) (hplain : fmt.Plain) {rows : List ρ}
    (hlabels : ∀ row ∈ rows, ∀ entry ∈ fields row, entry.1 ∈ fmt.labels)
    (hlast : ∀ row ∈ rows, ∀ entry ∈ (fields row).dropLast, entry.1 ≠ fmt.completing)
    (hvalues : ∀ row ∈ rows, ∀ entry ∈ fields row, IsTrimmedLine entry.2) :
    RendersRecords fmt.labels fmt.completing fields rows (formatRecords width fields rows) := by
  have hline : ∀ l ∈ rows.flatMap fun row => [] :: (fields row).map (formatField width),
      l = [] ∨ ∃ entry, plainLabel entry.1 ∧ IsTrimmedLine entry.2 ∧
        l = formatField width entry := by
    intro l hl
    obtain ⟨row, hrow, hl⟩ := List.mem_flatMap.mp hl
    refine (List.mem_cons.mp hl).imp_right fun hl => ?_
    obtain ⟨entry, hentry, rfl⟩ := List.mem_map.mp hl
    exact ⟨entry, hplain _ (hlabels row hrow entry hentry), hvalues row hrow entry hentry, rfl⟩
  refine @RendersRecords.mk _ _ _ _ _ _ (rows.map fields)
    (rows.flatMap fun row => [] :: (fields row).map (formatField width)) ?_ ?_ ?_ ?_ ?_
  · rw [List.forall₂_map_right_iff, List.forall₂_same]
    exact fun row hrow => ⟨.refl _, hlast row hrow⟩
  · clear hline hlast
    induction rows with
    | nil => exact .nil
    | cons row rows ih =>
        rw [List.forall_mem_cons] at hvalues hlabels
        rw [List.map_cons, List.flatten_cons, List.flatMap_cons]
        refine Interspersed.append (.other ?_ (Interspersed.of_map fun entry hentry =>
          isField_formatField width (hvalues.1 entry hentry))) (ih hlabels.2 hvalues.2)
        exact RecordFormat.unrecognised_of_blank hplain (by decide)
  · refine startsUnindented_of_forall fun l hl hblank => ?_
    rcases hline l hl with rfl | ⟨entry, hlabel, -, rfl⟩
    · exact absurd (by decide : Blank []) hblank
    · exact unindented_formatField width hlabel
  · intro l hl
    rcases hline l hl with rfl | ⟨entry, hlabel, hvalue, rfl⟩
    · decide
    · exact newline_not_mem_formatField width hlabel hvalue
  · rw [formatRecords, String.toList_ofList]

/-! ### The round trip -/

/-- The flags of a listed authority are printed as booleans. -/
lemma AuthorityData.Listed.exists_printed {ca : AuthorityData} (h : ca.Listed)
    {entry : String × String} (hentry : entry ∈ ca.fields) (hflag : entry.1 ∈ flagLabels) :
    ∃ b : Bool, entry.2 = (PyValue.bool b).printed := by
  have hno : ∀ label ∈ ["Name", "DisplayName", "ComputerName", "ConfigString", "Type",
      "ServiceStatus"], label ∉ flagLabels := by decide
  obtain ⟨⟨enterprise, henterprise⟩, ⟨root, hroot⟩, ⟨accessible, haccessible⟩, -⟩ := h
  simp only [AuthorityData.fields, List.mem_cons, List.not_mem_nil, or_false] at hentry
  rcases hentry with rfl | rfl | rfl | rfl | rfl | rfl | rfl | rfl | rfl
  · exact absurd hflag (hno _ (by simp))
  · exact absurd hflag (hno _ (by simp))
  · exact absurd hflag (hno _ (by simp))
  · exact absurd hflag (hno _ (by simp))
  · exact absurd hflag (hno _ (by simp))
  · exact ⟨enterprise, congrArg PyValue.printed henterprise⟩
  · exact ⟨root, congrArg PyValue.printed hroot⟩
  · exact ⟨accessible, congrArg PyValue.printed haccessible⟩
  · exact absurd hflag (hno _ (by simp))

/-- A flag of a rendering of listed authorities is the text of a boolean. -/
lemma exists_printed_of_flagTexts {rows : List AuthorityData} (hlisted : ∀ ca ∈ rows, ca.Listed)
    {entries : List (List (String × String))} {ls : List (List Char)}
    (hentries : List.Forall₂ (IsRow "ServiceStatus" AuthorityData.fields) rows entries)
    (hlines : Interspersed (fun entry l => IsField entry.1 entry.2.toList l)
      (Unrecognised authorityLabels) entries.flatten ls) {l : List Char} (hl : l ∈ ls)
    {text : String} (htext : text ∈ flagTexts l) : ∃ b : Bool, text = (PyValue.bool b).printed := by
  rcases hlines.mem_cases hl with hunrec | ⟨entry, hmem, hfield⟩
  · exact absurd htext (not_mem_flagTexts hunrec)
  obtain ⟨es, hes, hmem⟩ := List.mem_flatten.mp hmem
  obtain ⟨ca, hca, hperm, -⟩ := Rows.exists_of_forall₂_mem_right hentries hes
  have hmem' : entry ∈ ca.fields := hperm.mem_iff.mp hmem
  have hlabel : entry.1 ∈ authorityLabels := List.mem_map_of_mem hmem'
  have hplain : ∀ label ∈ authorityLabels, plainLabel label := by decide
  have hentry := hfield.isEntry (colon_not_mem_of_plainLabel (hplain _ hlabel))
  obtain ⟨hflag, rfl⟩ := hentry.of_flagTexts hlabel htext
  exact (hlisted ca hca).exists_printed hmem' hflag

/-- **The parsers of records undo `Format-List`**: on every rendering of a list
of templates, of certification authorities or of identified certificates, they
return exactly the list. -/
theorem parse_formatList {eval : Evaluator} (heval : EvalsBooleans eval) :
    (∀ rows text inputData, RendersRecords templateFormat.labels templateFormat.completing
        TemplateData.fields rows text →
        inputData.stdOut = text.toUTF8 → parseTemplateData inputData = .ok rows) ∧
      (∀ rows text inputData, (∀ ca ∈ rows, ca.Listed) →
        RendersRecords authorityLabels "ServiceStatus" AuthorityData.fields rows text →
        inputData.stdOut = text.toUTF8 → parseAuthorityData eval inputData = .ok rows) ∧
      ∀ rows text inputData, RendersRecords identifiedFormat.labels identifiedFormat.completing
        IdentifiedCertificate.fields rows text →
        inputData.stdOut = text.toUTF8 → parseIdentifiedCertificates inputData = .ok rows := by
  refine ⟨?_, ?_, ?_⟩
  · intro rows text inputData h hout
    exact h.parse_eq templateFormat_plain (by decide) (by decide)
      (fun t _ => templateReading_fits t) hout
  · intro rows text inputData hlisted h hout
    have hparse : parseAuthorityData eval inputData =
        (textFormat booleanValue).parse inputData := by
      obtain ⟨hentries, hlines, hstart, hnewline, htext⟩ := h
      refine parseAuthorityData_eq fun ls hls line hline value hvalue frame => ?_
      obtain ⟨l, hl, hvalue'⟩ :=
        exists_flagTexts_of_dumpLines htext hnewline hstart hout hls hline hvalue
      obtain ⟨b, rfl⟩ := exists_printed_of_flagTexts hlisted hentries hlines hl hvalue'
      exact heval.eval_printed b frame
    rw [hparse]
    exact @RendersRecords.parse_eq _ _ _ (authorityReading booleanValue) (authorityFormat_plain _)
      (by decide : authorityLabels.Nodup) (List.mem_of_getLast? rfl) _ _ h
      (fun ca hca => authorityReading_fits (hlisted ca hca)) _ hout
  · intro rows text inputData h hout
    exact h.parse_eq identifiedFormat_plain (by decide) (by decide)
      (fun c _ => identifiedReading_fits c) hout

/-- `eval` on the texts of the two booleans; any other text is refused. -/
def evalBoolean : Evaluator := fun frame text =>
  (booleanValue text).map frame.keep

lemma evalBoolean_evalsBooleans : EvalsBooleans evalBoolean :=
  ⟨fun _ => rfl, fun _ => rfl⟩

def sampleTemplate : TemplateData :=
  ⟨"WebServer", "", "4", "100.2", "1.3.6.1.4.1.311.21.8.1: 2"⟩

def listedCa : AuthorityData :=
  ⟨"Root CA", "Root CA", "ca.example.local", "ca.example.local\\Root CA", "Standalone Root CA",
    .bool false, .bool true, .bool true, .str ""⟩

def sampleIdentified : IdentifiedCertificate :=
  ⟨"WebServer", "180000032a9a1aac7197589cef00000000032a", "ca.example.local\\Root CA"⟩

/-- Two templates, a certification authority whose last field is empty, and a
certificate. -/
theorem parse_formatList_sample :
    parseTemplateData (printedText
        (formatRecords 13 TemplateData.fields [sampleTemplate, sampleTemplate])) =
      .ok [sampleTemplate, sampleTemplate] ∧
    parseAuthorityData evalBoolean
        (printedText (formatRecords 20 AuthorityData.fields [listedCa])) = .ok [listedCa] ∧
    parseIdentifiedCertificates
        (printedText (formatRecords 19 IdentifiedCertificate.fields [sampleIdentified])) =
      .ok [sampleIdentified] := by
  obtain ⟨htemplate, hauthority, hidentified⟩ := parse_formatList evalBoolean_evalsBooleans
  refine ⟨htemplate _ _ _ ?_ (printedText_stdOut _), hauthority _ _ _ ?_ ?_ (printedText_stdOut _),
    hidentified _ _ _ ?_ (printedText_stdOut _)⟩
  · exact rendersRecords_formatRecords 13 templateFormat_plain (by decide) (by decide) (by decide)
  · intro ca hca
    obtain rfl := List.mem_singleton.mp hca
    exact ⟨⟨_, rfl⟩, ⟨_, rfl⟩, ⟨_, rfl⟩, ⟨_, rfl⟩⟩
  · exact @rendersRecords_formatRecords _ (textFormat booleanValue) _ 20 (authorityFormat_plain _)
      _ (by decide : ∀ ca ∈ [listedCa], ∀ entry ∈ ca.fields, entry.1 ∈ authorityLabels)
      (by decide) (by decide)
  · exact rendersRecords_formatRecords 19 identifiedFormat_plain (by decide) (by decide)
      (by decide)

end AdcsConnector
