/-
`utils/dump_parser.py`: the records of a `Format-List` dump.

* `getValueFromLine`: the value of a labelled line;
* `certStep`, `parseCertificates`: the line machine of the certificate dump;
* `RecordFormat`: the line machine of the other dumps, with their labels and
  the label that completes a record: `parseTemplateData` and
  `parseIdentifiedCertificates` are its instances;
* `authorityStep`, `parseAuthorityData`: the same with flags that are evaluated
  in the frame of the parser;
* `RowLines`, `Renders`: how a dump renders the rows of a query;
* `parseCertificates_of_renders`: the parser returns exactly the rows rendered.
-/
import AdcsConnector.Remoting
import AdcsConnector.Library.Text
import AdcsConnector.Library.Lists

namespace AdcsConnector

open Text

/-! ### The line machines -/

/-- `get_value_from_line`. -/
def getValueFromLine (line : List Char) : Except PyError (List Char) :=
  match partition ':' line with
  | none => .error (.valueError "not enough values to unpack (expected 2, got 1)")
  | some (_, value) => .ok (strip value)

/-- `input_data.std_out.decode('utf-8').strip().split('\n')`. -/
def dumpLines (inputData : Response) : Except PyError (List (List Char)) :=
  (decode inputData.stdOut).map fun inputString => lines (strip inputString.toList)

/-- The local variables of `parse_certificates`. -/
structure CertState where
  inCert : Bool
  cert : List (List Char)
  template : List Char
  result : List ParseResult

def beginArmour : List Char := "-----BEGIN CERTIFICATE-----".toList

def endArmour : List Char := "-----END CERTIFICATE-----".toList

/-- `cert_data`: the lines joined, without armour and line ends. -/
def certData (cert : List (List Char)) : List Char :=
  remove ['\n'] (remove ['\r'] (remove endArmour (remove beginArmour cert.flatten)))

/-- One line of `parse_certificates`. -/
def certStep (st : CertState) (line : List Char) : Except PyError CertState :=
  if st.inCert && startsWith line "      " then
    .ok { st with cert := st.cert ++ [strip line] }
  else if startsWith line "CertificateTemplate " then
    -- the space is important
    (getValueFromLine line).map fun template => { st with template := template }
  else if startsWith line "RawCertificate " then
    (getValueFromLine line).map fun value =>
      { st with cert := st.cert ++ [value], inCert := true }
  else if st.inCert then
    .ok ⟨false, [], [], st.result ++
      [⟨String.ofList st.template, String.ofList (certData st.cert)⟩]⟩
  else .ok { st with inCert := false }

/-- `DumpParser.parse_certificates`. -/
def parseCertificates (inputData : Response) : Except PyError (List ParseResult) := do
  let lines ← dumpLines inputData
  let st ← lines.foldlM certStep ⟨false, [], [], []⟩
  return st.result

/-- An output that is parsed could be decoded. -/
lemma exists_decode_of_dumpLines {inputData : Response} {ls : List (List Char)}
    (h : dumpLines inputData = .ok ls) : ∃ s, decode inputData.stdOut = .ok s := by
  cases hdecode : decode inputData.stdOut with
  | ok s => exact ⟨s, rfl⟩
  | error e =>
      rw [dumpLines, hdecode] at h
      cases h

lemma exists_decode_of_parseCertificates {inputData : Response} {rows : List ParseResult}
    (h : parseCertificates inputData = .ok rows) : ∃ s, decode inputData.stdOut = .ok s := by
  cases hlines : dumpLines inputData with
  | ok ls => exact exists_decode_of_dumpLines hlines
  | error e =>
      rw [parseCertificates, hlines] at h
      cases h

/-- A dump of records: an empty record, the labels in the order they are tested
in, with what is done with the value, which may look at the records so far and
change them, and the label that completes a record. -/
structure RecordFormat (ρ : Type) where
  empty : ρ
  fields : List (String × (ρ → String → StateT (List ρ) (Except PyError) ρ))
  completing : String

/-- One line of a dump of records. -/
def RecordFormat.step {ρ : Type} (fmt : RecordFormat ρ) (st : ρ × List ρ) (line : List Char) :
    Except PyError (ρ × List ρ) :=
  match fmt.fields.find? fun f => startsWith line (f.1 ++ " ") with
  | none => .ok st
  | some (label, assign) => do
      let value ← getValueFromLine line
      let st' ← (assign st.1 (String.ofList value)).run st.2
      if label = fmt.completing then return (fmt.empty, st'.2 ++ [st'.1])
      else return st'

def RecordFormat.parse {ρ : Type} (fmt : RecordFormat ρ) (inputData : Response) :
    Except PyError (List ρ) := do
  let lines ← dumpLines inputData
  let st ← lines.foldlM fmt.step (fmt.empty, [])
  return st.2

def AuthorityData.blank : AuthorityData :=
  ⟨"", "", "", "", "", .str "", .str "", .str "", .str ""⟩

/-- The labels of `parse_authority_data`; three of the values go through
`eval`. -/
def authorityFormat
    (eval : AuthorityData → String → StateT (List AuthorityData) (Except PyError) PyValue) :
    RecordFormat AuthorityData where
  empty := .blank
  fields := [
    ("Name", fun r value => pure { r with name := value }),
    ("DisplayName", fun r value => pure { r with displayName := value }),
    ("ComputerName", fun r value => pure { r with computerName := value }),
    ("ConfigString", fun r value => pure { r with configString := value }),
    ("Type", fun r value => pure { r with caType := value }),
    ("IsEnterprise", fun r value => (fun v => { r with isEnterprise := v }) <$> eval r value),
    ("IsRoot", fun r value => (fun v => { r with isRoot := v }) <$> eval r value),
    ("IsAccessible", fun r value => (fun v => { r with isAccessible := v }) <$> eval r value),
    ("ServiceStatus", fun r value => pure { r with serviceStatus := .str value })]
  completing := "ServiceStatus"

/-- The local variables of `parse_authority_data` where a flag is evaluated:
`record` has the values read since the last record. -/
structure Locals where
  inputData : Response
  lines : List (List Char)
  line : List Char
  record : AuthorityData
  result : List AuthorityData

/-- The value of an expression, and the two lists of the parser after it: an
expression can change them in place, while it cannot assign to the variables. -/
structure Evaluation where
  value : PyValue
  lines : List (List Char)
  result : List AuthorityData

/-- A value, with the lists as they were. -/
def Locals.keep (frame : Locals) (value : PyValue) : Evaluation :=
  ⟨value, frame.lines, frame.result⟩

/-- Python's `eval` in the frame of the parser. -/
abbrev Evaluator := Locals → String → Except PyError Evaluation

/-- One line of `parse_authority_data`. An expression that changes the lines is
not followed further: the loop goes on with the lines it has begun with. -/
def authorityStep (eval : Evaluator) (inputData : Response) (lines : List (List Char))
    (st : AuthorityData × List AuthorityData) (line : List Char) :
    Except PyError (AuthorityData × List AuthorityData) :=
  (authorityFormat fun record text result =>
    (eval ⟨inputData, lines, line, record, result⟩ text).map fun e => (e.value, e.result)).step
      st line

/-- `DumpParser.parse_authority_data`. -/
def parseAuthorityData (eval : Evaluator) (inputData : Response) :
    Except PyError (List AuthorityData) := do
  let lines ← dumpLines inputData
  let st ← lines.foldlM (authorityStep eval inputData lines) (.blank, [])
  return st.2

lemma exists_decode_of_parseAuthorityData {eval : Evaluator} {inputData : Response}
    {cas : List AuthorityData} (h : parseAuthorityData eval inputData = .ok cas) :
    ∃ s, decode inputData.stdOut = .ok s := by
  cases hlines : dumpLines inputData with
  | ok ls => exact exists_decode_of_dumpLines hlines
  | error e =>
      rw [parseAuthorityData, hlines] at h
      cases h

/-- The labels of `parse_template_data`. -/
def templateFormat : RecordFormat TemplateData where
  empty := ⟨"", "", "", "", ""⟩
  fields := [
    ("Name", fun r value => pure { r with name := value }),
    ("DisplayName", fun r value => pure { r with displayName := value }),
    ("SchemaVersion", fun r value => pure { r with schemaVersion := value }),
    ("Version", fun r value => pure { r with version := value }),
    ("OID", fun r value => pure { r with oid := value })]
  completing := "OID"

/-- `DumpParser.parse_template_data`. -/
def parseTemplateData (inputData : Response) : Except PyError (List TemplateData) :=
  templateFormat.parse inputData

/-- The labels of `parse_identified_certificates`. -/
def identifiedFormat : RecordFormat IdentifiedCertificate where
  empty := ⟨"", "", ""⟩
  fields := [
    ("SerialNumber", fun r value => pure { r with serialNumber := value }),
    ("CertificateTemplate", fun r value => pure { r with certificateTemplate := value }),
    ("ConfigString", fun r value => pure { r with configString := value })]
  completing := "ConfigString"

/-- `DumpParser.parse_identified_certificates`. -/
def parseIdentifiedCertificates (inputData : Response) :
    Except PyError (List IdentifiedCertificate) :=
  identifiedFormat.parse inputData

/-! ### Rendered rows -/

/-- A line `label : value`, padded after the label, with any whitespace around
the value. -/
def IsField (label : String) (value line : List Char) : Prop :=
  ∃ pad rest, line = label.toList ++ ' ' :: (pad ++ ':' :: rest) ∧ (∀ c ∈ pad, c = ' ') ∧
    strip rest = value

/-- A labelled line: the label, a space, and a value after the first colon. -/
def IsEntry (label : String) (value line : List Char) : Prop :=
  (label ++ " ").toList <+: line ∧ getValueFromLine line = .ok value

/-- A line that begins with none of the labels. -/
def Unrecognised (labels : List String) (line : List Char) : Prop :=
  ∀ label ∈ labels, ¬ (label ++ " ").toList <+: line

instance (labels : List String) (line : List Char) : Decidable (Unrecognised labels line) :=
  inferInstanceAs (Decidable (∀ label ∈ labels, ¬ (label ++ " ").toList <+: line))

/-- A line indented by six spaces or more. -/
def IsContinuation (part line : List Char) : Prop :=
  "      ".toList <+: line ∧ strip line = part

/-- A character of a base64 text. -/
def isBase64 (c : Char) : Bool := c.isAlphanum || c = '+' || c = '/' || c = '='

/-- A base64 text cut into parts, with or without the armour lines. -/
def IsSplit (certificate : List Char) (parts : List (List Char)) : Prop :=
  ∃ head chunks tail, (head = [] ∨ head = [beginArmour]) ∧ (tail = [] ∨ tail = [endArmour]) ∧
    chunks.flatten = certificate ∧ parts = head ++ chunks ++ tail

/-- The labels `parse_certificates` knows. -/
def certificateLabels : List String := ["CertificateTemplate", "RawCertificate"]

/-- The lines of one row of a certificate dump: the template line, the lines of
the certificate, an unindented line with another label, and any other lines
around them. -/
inductive RowLines (row : ParseResult) : List (List Char) → Prop
  | mk {before middle conts after : List (List Char)} {template raw stop part : List Char}
      {parts : List (List Char)} (hbefore : ∀ l ∈ before, Unrecognised certificateLabels l)
      (htemplate : IsField "CertificateTemplate" row.template.toList template)
      (hmiddle : ∀ l ∈ middle, Unrecognised certificateLabels l)
      (hraw : IsField "RawCertificate" part raw)
      (hconts : List.Forall₂ IsContinuation parts conts)
      (hbase64 : ∀ c ∈ row.certificate.toList, isBase64 c)
      (hparts : IsSplit row.certificate.toList (part :: parts))
      (hstop : Unrecognised certificateLabels stop) (hindent : Unindented stop)
      (hafter : ∀ l ∈ after, Unrecognised certificateLabels l) :
      RowLines row (before ++ (template :: (middle ++ (raw :: (conts ++ (stop :: after))))))

/-- The text of a dump: the rows in order, between blank lines. The first line
that is not blank is unindented. Carriage returns count as trailing
whitespace of their lines. -/
inductive Renders (rows : List ParseResult) (text : String) : Prop
  | mk {lead trail : List (List Char)} {blocks : List (List (List Char))}
      (hlead : ∀ l ∈ lead, Blank l) (htrail : ∀ l ∈ trail, Blank l)
      (hblocks : List.Forall₂ RowLines rows blocks)
      (hstart : ∀ l ∈ blocks.flatten.head?, Unindented l)
      (hnewline : ∀ l ∈ lead ++ (blocks.flatten ++ trail), '\n' ∉ l)
      (htext : text.toList = unlines (lead ++ (blocks.flatten ++ trail)))

/-- The lines `Format-List` prints for a row. -/
def formatRow (row : ParseResult) : List (List Char) :=
  ["CertificateTemplate : ".toList ++ row.template.toList,
    "RawCertificate      : ".toList ++ row.certificate.toList, "RowId               : 1".toList]

def formatList (rows : List ParseResult) : String :=
  String.ofList (unlines (rows.flatMap formatRow))

/-- The answer that prints a text. -/
def printedText (text : String) : Response := ⟨text.toUTF8, .empty, 0⟩

lemma printedText_stdOut (text : String) : (printedText text).stdOut = text.toUTF8 := rfl

lemma dumpLines_printedText (text : String) :
    dumpLines (printedText text) = .ok (lines (strip text.toList)) := by
  rw [dumpLines, printedText_stdOut, decode_toUTF8]
  rfl

/-! ### Single lines -/

/-- The value of a labelled line is read back. -/
lemma IsField.getValueFromLine {label : String} {value line : List Char}
    (h : IsField label value line) (hlabel : ':' ∉ label.toList) :
    getValueFromLine line = .ok value := by
  obtain ⟨pad, rest, rfl, hpad, rfl⟩ := h
  have hsep : ':' ∉ label.toList ++ ' ' :: pad := by
    simp only [List.mem_append, List.mem_cons, not_or]
    exact ⟨hlabel, by decide, fun hmem => absurd (hpad _ hmem) (by decide)⟩
  have hsplit : label.toList ++ ' ' :: (pad ++ ':' :: rest) =
      (label.toList ++ ' ' :: pad) ++ ':' :: rest := by simp
  rw [AdcsConnector.getValueFromLine, hsplit, partition_append hsep]

/-- A labelled line begins with its label and a space. -/
lemma IsField.begins {label : String} {value line : List Char} (h : IsField label value line) :
    (label ++ " ").toList <+: line := by
  obtain ⟨pad, rest, rfl, -, -⟩ := h
  exact ⟨pad ++ ':' :: rest, by simp⟩

lemma IsField.isEntry {label : String} {value line : List Char} (h : IsField label value line)
    (hlabel : ':' ∉ label.toList) : IsEntry label value line :=
  ⟨h.begins, h.getValueFromLine hlabel⟩

/-- What a line does not begin with, its prefixes do not begin with. -/
lemma Unrecognised.mono {labels : List String} {l l' : List Char}
    (h : Unrecognised labels l) (hpre : l' <+: l) : Unrecognised labels l' :=
  fun label hlabel hl => h label hlabel (hl.trans hpre)

lemma unrecognised_of_blank {l : List Char} (h : Blank l) :
    Unrecognised certificateLabels l := by
  intro label hlabel hpre
  simp only [certificateLabels, List.mem_cons, List.not_mem_nil, or_false] at hlabel
  rcases hlabel with rfl | rfl
  · exact absurd (h 'C' (hpre.subset (by decide))) (by decide)
  · exact absurd (h 'R' (hpre.subset (by decide))) (by decide)

/-- An unindented line is no continuation. -/
lemma startsWith_of_unindented {l : List Char} (h : Unindented l) :
    startsWith l "      " = false := by
  obtain ⟨c, s, rfl, hc⟩ := h
  rw [startsWith_eq_false, show "      ".toList = ' ' :: "     ".toList from rfl,
    List.cons_prefix_cons]
  rintro ⟨rfl, -⟩
  exact hc (by decide)

lemma Unrecognised.startsWith_template {l : List Char} (h : Unrecognised certificateLabels l) :
    startsWith l "CertificateTemplate " = false :=
  startsWith_eq_false.mpr (h "CertificateTemplate" (by simp [certificateLabels]))

lemma Unrecognised.startsWith_raw {l : List Char} (h : Unrecognised certificateLabels l) :
    startsWith l "RawCertificate " = false :=
  startsWith_eq_false.mpr (h "RawCertificate" (by simp [certificateLabels]))

/-! ### The machine on the lines of a row -/

variable {template : List Char} {result : List ParseResult} {cert : List (List Char)}

/-- Outside of a certificate, an unrecognised line is passed over. -/
lemma certStep_unrecognised {l : List Char} (h : Unrecognised certificateLabels l) :
    certStep ⟨false, cert, template, result⟩ l = .ok ⟨false, cert, template, result⟩ := by
  simp only [certStep, h.startsWith_template, h.startsWith_raw, Bool.false_and,
    Bool.false_eq_true, if_false]

lemma foldlM_certStep_unrecognised {ls : List (List Char)}
    (h : ∀ l ∈ ls, Unrecognised certificateLabels l) :
    ls.foldlM certStep ⟨false, cert, template, result⟩ =
      .ok ⟨false, cert, template, result⟩ :=
  Rows.foldlM_eq_self fun l hl => certStep_unrecognised (h l hl)

/-- A labelled line of a certificate dump is not indented. -/
lemma IsEntry.startsWith_indent {label : String} {value l : List Char} (h : IsEntry label value l)
    (hlabel : label ∈ certificateLabels) : startsWith l "      " = false := by
  obtain ⟨⟨rest, rfl⟩, -⟩ := h
  fin_cases hlabel <;> rfl

lemma certStep_template {inCert : Bool} {value l : List Char}
    (h : IsEntry "CertificateTemplate" value l) :
    certStep ⟨inCert, cert, template, result⟩ l = .ok ⟨inCert, cert, value, result⟩ := by
  have hpre : startsWith l "CertificateTemplate " = true := startsWith_iff.mpr h.1
  simp only [certStep, h.startsWith_indent (by decide), hpre, h.2, Bool.and_false,
    Bool.false_eq_true, if_false, if_true]
  rfl

lemma certStep_raw {inCert : Bool} {value l : List Char} (h : IsEntry "RawCertificate" value l) :
    certStep ⟨inCert, cert, template, result⟩ l =
      .ok ⟨true, cert ++ [value], template, result⟩ := by
  have hpre : startsWith l "RawCertificate " = true := startsWith_iff.mpr h.1
  have hother : startsWith l "CertificateTemplate " = false := by
    obtain ⟨⟨rest, rfl⟩, -⟩ := h
    rfl
  simp only [certStep, h.startsWith_indent (by decide), hpre, hother, h.2, Bool.and_false,
    Bool.false_eq_true, if_false, if_true]
  rfl

lemma certStep_continuation {part l : List Char} (h : IsContinuation part l) :
    certStep ⟨true, cert, template, result⟩ l =
      .ok ⟨true, cert ++ [part], template, result⟩ := by
  simp only [certStep, startsWith_iff.mpr h.1, h.2, Bool.and_self, if_true]

lemma foldlM_certStep_continuations {parts conts : List (List Char)}
    (h : List.Forall₂ IsContinuation parts conts) :
    conts.foldlM certStep ⟨true, cert, template, result⟩ =
      .ok ⟨true, cert ++ parts, template, result⟩ := by
  induction h generalizing cert with
  | nil => simp [pure, Except.pure]
  | @cons part l parts conts hl hrest ih =>
      rw [Rows.foldlM_cons_of_ok (certStep_continuation hl), ih, List.append_assoc,
        List.singleton_append]

/-- A line with another label that is no continuation completes the record. -/
lemma certStep_stop {l : List Char} (h : Unrecognised certificateLabels l)
    (hl : startsWith l "      " = false) :
    certStep ⟨true, cert, template, result⟩ l = .ok ⟨false, [], [], result ++
      [⟨String.ofList template, String.ofList (certData cert)⟩]⟩ := by
  simp only [certStep, h.startsWith_template, h.startsWith_raw, hl, Bool.and_false,
    Bool.false_eq_true, if_false, if_true]

/-! ### The certificate of a row -/

/-- The parts of a base64 text are put together again. -/
lemma certData_of_isSplit {certificate : List Char} {parts : List (List Char)}
    (hbase64 : ∀ c ∈ certificate, isBase64 c) (h : IsSplit certificate parts) :
    certData parts = certificate := by
  have hdash : '-' ∉ certificate := fun hmem => absurd (hbase64 _ hmem) (by decide)
  have hcr : '\r' ∉ certificate := fun hmem => absurd (hbase64 _ hmem) (by decide)
  have hlf : '\n' ∉ certificate := fun hmem => absurd (hbase64 _ hmem) (by decide)
  obtain ⟨head, chunks, tail, hhead, htail, rfl, rfl⟩ := h
  have hbegin : remove beginArmour (head.flatten ++ (chunks.flatten ++ tail.flatten)) =
      chunks.flatten ++ tail.flatten := by
    have hend : remove beginArmour tail.flatten = tail.flatten := by
      rcases htail with rfl | rfl <;> decide
    have hrest : remove beginArmour (chunks.flatten ++ tail.flatten) =
        chunks.flatten ++ tail.flatten := by
      rw [show beginArmour = '-' :: beginArmour.tail from rfl] at hend ⊢
      rw [remove_append hdash, hend]
    rcases hhead with rfl | rfl
    · exact hrest
    · have hself := remove_self_append '-' beginArmour.tail (chunks.flatten ++ tail.flatten)
      rw [List.flatten_singleton]
      exact hself.trans hrest
  have hend : remove endArmour (chunks.flatten ++ tail.flatten) = chunks.flatten := by
    have hnil : remove endArmour tail.flatten = [] := by
      rcases htail with rfl | rfl <;> decide
    rw [show endArmour = '-' :: endArmour.tail from rfl] at hnil ⊢
    rw [remove_append hdash, hnil, List.append_nil]
  calc certData (head ++ chunks ++ tail)
      = remove ['\n'] (remove ['\r'] (remove endArmour (remove beginArmour
          (head.flatten ++ (chunks.flatten ++ tail.flatten))))) := by
        rw [certData, List.flatten_append, List.flatten_append, List.append_assoc]
    _ = remove ['\n'] (remove ['\r'] chunks.flatten) := by rw [hbegin, hend]
    _ = chunks.flatten := by rw [remove_of_not_mem hcr, remove_of_not_mem hlf]

/-! ### Dumps -/

/-- The lines of a row add the row to the result. -/
lemma RowLines.foldlM_certStep {row : ParseResult} {ls : List (List Char)} (h : RowLines row ls) :
    ls.foldlM certStep ⟨false, [], template, result⟩ = .ok ⟨false, [], [], result ++ [row]⟩ := by
  obtain ⟨hbefore, htemplate, hmiddle, hraw, hconts, hbase64, hparts, hstop, hindent, hafter⟩ := h
  rw [Rows.foldlM_append_of_ok (foldlM_certStep_unrecognised hbefore),
    Rows.foldlM_cons_of_ok (certStep_template (htemplate.isEntry (by decide))),
    Rows.foldlM_append_of_ok (foldlM_certStep_unrecognised hmiddle),
    Rows.foldlM_cons_of_ok (certStep_raw (hraw.isEntry (by decide))),
    Rows.foldlM_append_of_ok (foldlM_certStep_continuations hconts),
    Rows.foldlM_cons_of_ok (certStep_stop hstop (startsWith_of_unindented hindent)),
    foldlM_certStep_unrecognised hafter, List.nil_append, List.singleton_append,
    certData_of_isSplit hbase64 hparts, String.ofList_toList, String.ofList_toList]

lemma foldlM_certStep_rows {rows : List ParseResult} {blocks : List (List (List Char))}
    (h : List.Forall₂ RowLines rows blocks) :
    ∃ template', blocks.flatten.foldlM certStep ⟨false, [], template, result⟩ =
      .ok ⟨false, [], template', result ++ rows⟩ := by
  induction h generalizing template result with
  | nil => exact ⟨template, by simp [pure, Except.pure]⟩
  | @cons row ls rows blocks hrow hrest ih =>
      obtain ⟨template', hfold⟩ := @ih [] (result ++ [row])
      refine ⟨template', ?_⟩
      rw [List.flatten_cons, Rows.foldlM_append_of_ok hrow.foldlM_certStep]
      exact hfold.trans (by simp)

/-- A row has a line that is not blank. -/
lemma RowLines.exists_not_blank {row : ParseResult} {ls : List (List Char)} (h : RowLines row ls) :
    ∃ l ∈ ls, ¬ Blank l := by
  obtain ⟨hbefore, htemplate, hmiddle, hraw, hconts, hbase64, hparts, hstop, hindent, hafter⟩ := h
  exact ⟨_, by simp, hindent.not_blank⟩

/-- Trimming after a row only shortens the lines that follow its certificate. -/
lemma RowLines.trimEnd {row : ParseResult} {ls : List (List Char)} (h : RowLines row ls)
    {trail : List (List Char)} (htrail : ∀ l ∈ trail, Blank l) :
    RowLines row (trimEnd (ls ++ trail)) := by
  obtain @⟨before, middle, conts, after, template, raw, stop, part, parts, hbefore, htemplate,
    hmiddle, hraw, hconts, hbase64, hparts, hstop, hindent, hafter⟩ := h
  obtain ⟨stop', after', heq, hindent', hpre, hafter'⟩ :=
    exists_trimEnd_cons hindent (after ++ trail)
  have hsplit : before ++ (template :: (middle ++ (raw :: (conts ++ (stop :: after))))) ++ trail =
      (before ++ (template :: (middle ++ (raw :: conts)))) ++ (stop :: (after ++ trail)) := by
    simp
  rw [hsplit, trimEnd_append _ ⟨stop, List.mem_cons_self, hindent.not_blank⟩, heq]
  have hlines : RowLines row
      (before ++ (template :: (middle ++ (raw :: (conts ++ (stop' :: after')))))) := by
    refine .mk hbefore htemplate hmiddle hraw hconts hbase64 hparts (hstop.mono hpre)
      hindent' fun l hl => ?_
    obtain ⟨l', hl', hpre'⟩ := hafter' l hl
    rcases List.mem_append.mp hl' with hl' | hl'
    · exact (hafter l' hl').mono hpre'
    · exact (unrecognised_of_blank (htrail l' hl')).mono hpre'
  simpa using hlines

/-- Trimming a dump keeps it a dump of the same rows. -/
lemma exists_trimEnd_rows {rows : List ParseResult} {blocks : List (List (List Char))}
    (h : List.Forall₂ RowLines rows blocks) (hne : rows ≠ []) {trail : List (List Char)}
    (htrail : ∀ l ∈ trail, Blank l) : ∃ blocks', List.Forall₂ RowLines rows blocks' ∧
      trimEnd (blocks.flatten ++ trail) = blocks'.flatten := by
  induction h with
  | nil => exact absurd rfl hne
  | @cons row ls rows blocks hrow hrest ih =>
      cases hrest with
      | nil => exact ⟨[_], .cons (hrow.trimEnd htrail) .nil, by simp⟩
      | @cons row' ls' rows blocks hrow' hrest =>
          obtain ⟨blocks', hblocks', heq⟩ := ih (by simp)
          obtain ⟨l, hl, hblank⟩ := hrow'.exists_not_blank
          refine ⟨ls :: blocks', .cons hrow hblocks', ?_⟩
          rw [List.flatten_cons, List.append_assoc,
            trimEnd_append ls ⟨l, by simp [hl], hblank⟩, heq, List.flatten_cons]

/-- **The parser returns exactly the rows of a dump**, in order. -/
theorem parseCertificates_of_renders {rows : List ParseResult} {text : String}
    (h : Renders rows text) {inputData : Response} (hout : inputData.stdOut = text.toUTF8) :
    parseCertificates inputData = .ok rows := by
  obtain ⟨hlead, htrail, hblocks, hstart, hnewline, htext⟩ := h
  have hlines : ∃ ls template', lines (strip text.toList) = ls ∧
      ls.foldlM certStep ⟨false, [], [], []⟩ = .ok ⟨false, [], template', rows⟩ := by
    rw [htext]
    cases hblocks with
    | nil =>
        refine ⟨[[]], [], lines_strip_of_blank fun l hl => ?_, ?_⟩
        · rcases List.mem_append.mp hl with hl | hl
          · exact hlead l hl
          · exact htrail l hl
        · exact certStep_unrecognised
            (unrecognised_of_blank fun c hc => absurd hc List.not_mem_nil)
    | @cons row ls rows blocks hrow hrest =>
        obtain ⟨blocks', hblocks', heq⟩ := exists_trimEnd_rows (.cons hrow hrest) (by simp) htrail
        obtain ⟨template', hfold⟩ := foldlM_certStep_rows hblocks'
        refine ⟨blocks'.flatten, template', ?_, hfold⟩
        obtain ⟨l, hl, -⟩ := hrow.exists_not_blank
        have hne : (ls :: blocks).flatten ≠ [] := List.ne_nil_of_mem
          (List.mem_flatten.mpr ⟨ls, List.mem_cons_self, hl⟩)
        obtain ⟨x, xs, hx⟩ := List.exists_cons_of_ne_nil hne
        rw [hx] at hstart hnewline heq ⊢
        rw [← heq]
        refine lines_strip hlead (hstart x rfl) fun y hy => ?_
        exact hnewline y (List.mem_append_right _ hy)
  obtain ⟨ls, template', hls, hfold⟩ := hlines
  rw [parseCertificates, dumpLines, hout, decode_toUTF8]
  simp only [Except.map, bind, Except.bind, pure, Except.pure, hls]
  rw [hfold]

/-! ### Every row has a rendering -/

/-- A row a dump can show: a trimmed single-line template and a base64 text. -/
structure ParseResult.Printable (row : ParseResult) : Prop where
  template_strip : strip row.template.toList = row.template.toList
  template_line : '\n' ∉ row.template.toList
  base64 : ∀ c ∈ row.certificate.toList, isBase64 c

/-- Letters and digits have codes between those of `0` and `z`. -/
lemma toNat_of_isAlphanum {c : Char} (h : c.isAlphanum) : 48 ≤ c.toNat ∧ c.toNat ≤ 122 := by
  delta Char.isAlphanum Char.isAlpha Char.isUpper Char.isLower Char.isDigit at h
  simp only [ge_iff_le, Bool.or_eq_true, Bool.and_eq_true, decide_eq_true_eq,
    UInt32.le_iff_toNat_le, Char.isValue, Char.reduceVal, UInt32.reduceToNat,
    Char.toNat_val] at h
  omega

lemma not_isSpace_of_isBase64 {c : Char} (h : isBase64 c) : ¬ isSpace c := by
  simp only [isBase64, Bool.or_eq_true, decide_eq_true_eq] at h
  rcases h with ((h | rfl) | rfl) | rfl
  · have hcode := toNat_of_isAlphanum h
    simp only [isSpace, Bool.or_eq_true, Bool.and_eq_true, decide_eq_true_eq]
    omega
  all_goals decide

lemma rowLines_formatRow {row : ParseResult} (h : row.Printable) :
    RowLines row (formatRow row) := by
  have htemplate : IsField "CertificateTemplate" row.template.toList
      ("CertificateTemplate : ".toList ++ row.template.toList) :=
    ⟨[], ' ' :: row.template.toList, by simp, by simp, h.template_strip⟩
  have hraw : IsField "RawCertificate" row.certificate.toList
      ("RawCertificate      : ".toList ++ row.certificate.toList) :=
    ⟨"     ".toList, ' ' :: row.certificate.toList, by simp, by simp,
      strip_of_not_isSpace fun c hc => not_isSpace_of_isBase64 (h.base64 c hc)⟩
  have hsplit : IsSplit row.certificate.toList [row.certificate.toList] :=
    ⟨[], [row.certificate.toList], [], .inl rfl, .inl rfl, by simp, rfl⟩
  have hstop : Unrecognised certificateLabels "RowId               : 1".toList := by decide
  have hindent : Unindented "RowId               : 1".toList :=
    ⟨'R', "owId               : 1".toList, rfl, by decide⟩
  exact @RowLines.mk row [] [] [] [] _ _ _ row.certificate.toList [] (by simp) htemplate (by simp)
    hraw .nil h.base64 hsplit hstop hindent (by simp)

/-- **Every list of printable rows has a rendering.** -/
theorem renders_formatList {rows : List ParseResult} (h : ∀ row ∈ rows, row.Printable) :
    Renders rows (formatList rows) := by
  have hblocks : List.Forall₂ RowLines rows (rows.map formatRow) := by
    rw [List.forall₂_map_right_iff, List.forall₂_same]
    exact fun row hrow => rowLines_formatRow (h row hrow)
  refine @Renders.mk rows _ [] [] _ (by simp) (by simp) hblocks ?_ ?_ ?_
  · cases rows with
    | nil => simp
    | cons row rows =>
        rintro l ⟨rfl⟩
        exact ⟨'C', _, rfl, by decide⟩
  · intro l hl
    simp only [List.nil_append, List.append_nil, List.mem_flatten, List.mem_map] at hl
    obtain ⟨ls, ⟨row, hrow, rfl⟩, hl⟩ := hl
    simp only [formatRow, List.mem_cons, List.not_mem_nil, or_false] at hl
    rcases hl with rfl | rfl | rfl
    · rw [List.mem_append, not_or]
      exact ⟨by decide, (h row hrow).template_line⟩
    · rw [List.mem_append, not_or]
      exact ⟨by decide, fun hmem => absurd ((h row hrow).base64 _ hmem) (by decide)⟩
    · decide
  · rw [formatList, String.toList_ofList, List.flatMap_def]
    simp

end AdcsConnector
