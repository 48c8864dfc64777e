/-
Dumps of certificates in blocks: when `parse_certificates` returns one record of
each block that holds a RawCertificate, and the four parsers together.

* `CertificateBlock`, `CertificateLines`: the blocks of a certificate dump;
* `exists_reads_of_blockDump`: the events of a dump, with the certificates of
  its blocks;
* `certificates_separate_iff`: the records are those of the blocks exactly when
  every certificate is ended with the template of its block;
* `records_separate_iff`: the same of the four parsers.
-/
import AdcsConnector.CertificateEvents
import AdcsConnector.DumpBlocks
import AdcsConnector.FormatList

namespace AdcsConnector

open Text Blocks

/-! ### Blocks of a certificate dump -/

/-- A block of a certificate dump: its template, and the parts of its
certificate. -/
structure CertificateBlock where
  template : Option (List Char)
  certificate : Option (List (List Char))

/-- An unindented line with another label. -/
def IsOther (l : List Char) : Prop := Unrecognised certificateLabels l ∧ Unindented l

/-- The lines of a block: other lines, at most one CertificateTemplate line, and
then at most one RawCertificate line with its continuation lines and other
lines after these. -/
inductive CertificateLines : CertificateBlock → List (List Char) → Prop
  | incomplete {template : Option (List Char)} {ls : List (List Char)} (hne : ls ≠ [])
      (hlines : Interspersed (IsEntry "CertificateTemplate") IsOther template.toList ls) :
      CertificateLines ⟨template, none⟩ ls
  | complete {template : Option (List Char)} {before conts after : List (List Char)}
      {value raw : List Char} {parts : List (List Char)}
      (hbefore : Interspersed (IsEntry "CertificateTemplate") IsOther template.toList before)
      (hraw : IsEntry "RawCertificate" value raw)
      (hconts : List.Forall₂ IsContinuation parts conts) (hafter : ∀ l ∈ after, IsOther l) :
      CertificateLines ⟨template, some (value :: parts)⟩ (before ++ (raw :: (conts ++ after)))

namespace CertificateBlock

/-- The block holds a RawCertificate. -/
def completes (b : CertificateBlock) : Bool := b.certificate.isSome

/-- The template of a record; a block without one has the empty string. -/
def recordTemplate (b : CertificateBlock) : List Char := b.template.getD []

/-- The record of a block, made of its own lines only. -/
def record (b : CertificateBlock) : ParseResult :=
  ⟨String.ofList b.recordTemplate, String.ofList (certData (b.certificate.getD []))⟩

end CertificateBlock

/-! ### Lines of a block -/

variable {b : CertificateBlock} {ls : List (List Char)}

lemma IsEntry.hasValue {label : String} {value l : List Char} (h : IsEntry label value l) :
    HasValue l :=
  .inr (colon_mem_of_getValueFromLine h.2)

/-- A labelled line of a certificate dump is unindented. -/
lemma IsEntry.unindented {label : String} {value l : List Char} (h : IsEntry label value l)
    (hlabel : label ∈ certificateLabels) : Unindented l := by
  obtain ⟨⟨rest, rfl⟩, -⟩ := h
  fin_cases hlabel
  · exact ⟨'C', _, rfl, by decide⟩
  · exact ⟨'R', _, rfl, by decide⟩

/-- The lines before a RawCertificate. -/
lemma hasValue_unindented {values : List (List Char)}
    (h : Interspersed (IsEntry "CertificateTemplate") IsOther values ls) {l : List Char}
    (hl : l ∈ ls) : HasValue l ∧ Unindented l := by
  rcases h.mem_cases hl with hother | ⟨value, -, hentry⟩
  · exact ⟨.inl hother.1, hother.2⟩
  · exact ⟨hentry.hasValue, hentry.unindented (by decide)⟩

/-- A line of a block has a value, if it is labelled, and is unindented, or
continues the certificate. -/
lemma CertificateLines.mem_cases (h : CertificateLines b ls) {l : List Char} (hl : l ∈ ls) :
    HasValue l ∧ (Unindented l ∨ "      ".toList <+: l) := by
  cases h with
  | incomplete hne h => exact (hasValue_unindented h hl).imp_right .inl
  | @complete template before conts after value raw parts hbefore hraw hconts hafter =>
      rcases List.mem_append.mp hl with hl | hl
      · exact (hasValue_unindented hbefore hl).imp_right .inl
      rcases List.mem_cons.mp hl with rfl | hl
      · exact ⟨hraw.hasValue, .inl (hraw.unindented (by decide))⟩
      rcases List.mem_append.mp hl with hl | hl
      · obtain ⟨part, -, hcont⟩ := Rows.exists_of_forall₂_mem_right hconts hl
        exact ⟨.inl (unrecognised_of_indented hcont.1), .inr hcont.1⟩
      · exact ⟨.inl (hafter l hl).1, .inl (hafter l hl).2⟩

/-- A block begins with an unindented line. -/
lemma CertificateLines.exists_cons (h : CertificateLines b ls) :
    ∃ l ls', ls = l :: ls' ∧ Unindented l := by
  cases h with
  | incomplete hne h =>
      obtain ⟨l, ls', rfl⟩ := List.exists_cons_of_ne_nil hne
      exact ⟨l, ls', rfl, (hasValue_unindented h List.mem_cons_self).2⟩
  | @complete template before conts after value raw parts hbefore hraw hconts hafter =>
      cases before with
      | nil => exact ⟨raw, _, rfl, hraw.unindented (by decide)⟩
      | cons l before =>
          exact ⟨l, _, rfl, (hasValue_unindented hbefore List.mem_cons_self).2⟩

/-! ### Events of a dump -/

lemma exists_reads_lines {values : List (List Char)}
    (h : Interspersed (IsEntry "CertificateTemplate") IsOther values ls) :
    ∃ events, Reads ls events ∧ certificates events = [] := by
  induction h with
  | nil => exact ⟨[], .nil, rfl⟩
  | other hb _ ih =>
      obtain ⟨events, hreads, hnone⟩ := ih
      have hends := certEvent_of_unrecognised hb.1 (startsWith_of_unindented hb.2)
      exact ⟨_, (Reads.of_certEvent hends).append hreads, hnone⟩
  | item hab _ ih =>
      obtain ⟨events, hreads, hnone⟩ := ih
      exact ⟨_, (Reads.of_certEvent (certEvent_of_template hab)).append hreads, hnone⟩

/-- Blank lines end a certificate or are passed over. -/
lemma exists_reads_blank (h : ∀ l ∈ ls, Blank l) :
    ∃ events, Reads ls events ∧ certificates events = [] := by
  induction ls with
  | nil => exact ⟨[], .nil, rfl⟩
  | cons l ls ih =>
      rw [List.forall_mem_cons] at h
      obtain ⟨events, hreads, hnone⟩ := ih h.2
      by_cases hindent : startsWith l "      " = true
      · exact ⟨_, (Reads.of_blank h.1 (startsWith_iff.mp hindent)).append hreads, hnone⟩
      · have hends := certEvent_of_unrecognised (unrecognised_of_blank h.1)
          (by simpa using hindent)
        exact ⟨_, (Reads.of_certEvent hends).append hreads, hnone⟩

/-- The events of a block have its certificate. -/
lemma CertificateLines.exists_reads (h : CertificateLines b ls) :
    ∃ events, Reads ls events ∧ certificates events = b.certificate.toList.map List.flatten := by
  cases h with
  | incomplete hne h => exact exists_reads_lines h
  | @complete template before conts after value raw parts hbefore hraw hconts hafter =>
      have hafter' : Interspersed (IsEntry "CertificateTemplate") IsOther [] after := by
        clear hbefore hraw hconts
        induction after with
        | nil => exact .nil
        | cons l after ih =>
            rw [List.forall_mem_cons] at hafter
            exact .other hafter.1 (ih hafter.2)
      obtain ⟨events, hreads, hnone⟩ := exists_reads_lines hbefore
      obtain ⟨events', hreads', hnone'⟩ := exists_reads_lines hafter'
      refine ⟨_, hreads.append ((Reads.certificate hraw hconts).append hreads'), ?_⟩
      rw [certificates_append, certificates_append, hnone, hnone']
      rfl

open CertificateBlock

/-- The certificates of the blocks that hold one. -/
def ownCertificates (blocks : List CertificateBlock) : List (List Char) :=
  (blocks.filter completes).map fun b => (b.certificate.getD []).flatten

lemma ownCertificates_cons (b : CertificateBlock) (bs : List CertificateBlock) :
    ownCertificates (b :: bs) = b.certificate.toList.map List.flatten ++ ownCertificates bs := by
  cases hb : b.certificate with
  | none => simp [ownCertificates, completes, hb]
  | some parts => simp [ownCertificates, completes, hb]

/-- A dump with a block begins with an unindented line. -/
lemma exists_cons_of_separated {blocks : List CertificateBlock} {body : List (List Char)}
    (h : Separated CertificateLines Blank blocks body) (hne : blocks ≠ []) :
    ∃ l rest, body = l :: rest ∧ Unindented l := by
  cases h with
  | nil => exact absurd rfl hne
  | last hb => exact hb.exists_cons
  | cons hb _ _ _ =>
      obtain ⟨l, ls', rfl, hl⟩ := hb.exists_cons
      exact ⟨l, _, rfl, hl⟩

/-- The events of the trimmed lines of a dump have the certificates of its
blocks. -/
lemma exists_reads_separated {blocks : List CertificateBlock} {body : List (List Char)}
    (h : Separated CertificateLines Blank blocks body) :
    ∃ events, Reads (trimEnd body) events ∧ certificates events = ownCertificates blocks := by
  -- only the last block is trimmed
  have hlast : ∀ {b ls}, CertificateLines b ls →
      ∃ events, Reads (trimEnd ls) events ∧ certificates events = ownCertificates [b] := by
    intro b ls hb
    obtain ⟨events, hreads, hcertificates⟩ := hb.exists_reads
    refine ⟨events, hreads.trimEnd (fun l hl => (hb.mem_cases hl).1) fun l hl hblank => ?_, ?_⟩
    · exact (hb.mem_cases hl).2.resolve_left fun hindent => hindent.not_blank hblank
    · rw [hcertificates, ownCertificates_cons]
      exact (List.append_nil _).symm
  induction h with
  | nil => exact ⟨[], .nil, rfl⟩
  | last hb => exact hlast hb
  | @cons b bs ls seps rest hb hne hseps hrest ih =>
      by_cases hbs : bs = []
      · subst hbs
        cases hrest
        rw [List.append_nil, trimEnd_append_of_blank ls hseps]
        exact hlast hb
      · obtain ⟨l, rest', hrest', hl⟩ := exists_cons_of_separated hrest hbs
        obtain ⟨events, hreads, hcertificates⟩ := hb.exists_reads
        obtain ⟨events', hreads', hnone⟩ := exists_reads_blank hseps
        obtain ⟨events'', hreads'', hcertificates'⟩ := ih
        rw [← List.append_assoc, trimEnd_append _ ⟨l, by simp [hrest'], hl.not_blank⟩]
        refine ⟨_, (hreads.append hreads').append hreads'', ?_⟩
        rw [certificates_append, certificates_append, hcertificates, hnone, hcertificates',
          List.append_nil, ownCertificates_cons]

/-- The events of an output. -/
def certEvents (text : String) : List CertEvent := (outputLines text).filterMap certEvent

/-- The events of a dump have the certificates of its blocks. -/
lemma exists_reads_of_blockDump {blocks : List CertificateBlock} {text : String}
    (h : BlockDump CertificateLines Blank blocks text) :
    ∃ events, Reads (outputLines text) events ∧ certificates events = ownCertificates blocks ∧
      ∀ l ∈ outputLines text, HasValue l := by
  obtain ⟨hlead, hbody, hnewline, htext⟩ := h
  rename_i lead body
  rw [outputLines, htext]
  by_cases hne : blocks = []
  · subst hne
    cases hbody
    have hempty : Unrecognised certificateLabels [] := unrecognised_of_blank (by decide)
    rw [List.append_nil, lines_strip_of_blank hlead]
    refine ⟨_, .of_certEvent (certEvent_of_unrecognised hempty rfl), rfl, ?_⟩
    simpa using .inl hempty
  · obtain ⟨l, rest, rfl, hl⟩ := exists_cons_of_separated hbody hne
    rw [lines_strip hlead hl fun x hx => hnewline x (List.mem_append_right _ hx)]
    obtain ⟨events, hreads, hcertificates⟩ := exists_reads_separated hbody
    refine ⟨events, hreads, hcertificates, fun x hx => ?_⟩
    obtain ⟨y, hy, hxy⟩ := mem_trimEnd hx
    have hvalue : HasValue y := by
      rcases hbody.mem_cases hy with hblank | ⟨b, -, ls, hb, hmem⟩
      · exact .inl (unrecognised_of_blank hblank)
      · exact (hb.mem_cases hmem).1
    rcases hxy with rfl | ⟨rfl, -⟩
    · exact hvalue
    · exact hvalue.rstrip

/-- **When certificates do not bleed into each other and none is dropped.** On a
dump in blocks, `parse_certificates` returns one record of each block that holds
a RawCertificate, in order and of its own lines only, exactly when each
certificate is ended before the next one begins and the template it then has is
that of its block. -/
theorem certificates_separate_iff {blocks : List CertificateBlock} {text : String}
    (h : BlockDump CertificateLines Blank blocks text) {inputData : Response}
    (hout : inputData.stdOut = text.toUTF8) :
    parseCertificates inputData = .ok ((blocks.filter completes).map CertificateBlock.record) ↔
      Ended ((blocks.filter completes).map recordTemplate) (certEvents text) := by
  obtain ⟨events, hreads, hcertificates, hvalue⟩ := exists_reads_of_blockDump h
  have hrecords : (blocks.filter completes).map CertificateBlock.record =
      List.zipWith certRecord ((blocks.filter completes).map recordTemplate)
        (certificates events) := by
    rw [hcertificates, ownCertificates, List.zipWith_map, List.zipWith_self]
    refine List.map_congr_left fun b _ => ?_
    simp [CertificateBlock.record, certRecord, certData]
  have hlength : ((blocks.filter completes).map recordTemplate).length =
      (certificates events).length := by
    rw [hcertificates, ownCertificates, List.length_map, List.length_map]
  rw [parseCertificates_eq hvalue hout, hreads.foldl_eq, hrecords, certEvents, hreads.events_eq,
    Except.ok.injEq]
  exact result_eq_iff_ended hlength

/-! ### The four parsers -/

/-- **When records do not bleed into each other and none is dropped**, for each
of the four parsers and every dump in blocks. A certificate must be ended before
the next one begins, with the template of its block. In the other dumps no
incomplete block directly before a complete one may leave a value for a label
this one lacks; and, of flags that neither read nor change the variables of the
parser, all must evaluate. -/
theorem records_separate_iff (eval : Evaluator) {text : String} {inputData : Response}
    (hout : inputData.stdOut = text.toUTF8) :
    (∀ blocks, BlockDump CertificateLines Blank blocks text →
      (parseCertificates inputData =
          .ok ((blocks.filter completes).map CertificateBlock.record) ↔
        Ended ((blocks.filter completes).map recordTemplate) (certEvents text))) ∧
    (∀ blocks, BlockDump BlockLines Blank blocks text →
      ((∃ records, parseIdentifiedCertificates inputData = .ok records ∧
          List.Forall₂ identifiedReading.IsRecordOf (blocks.filter Block.completes) records) ↔
        identifiedReading.NothingCarried blocks)) ∧
    (∀ blocks, BlockDump BlockLines Blank blocks text →
      ((∃ records, parseTemplateData inputData = .ok records ∧
          List.Forall₂ templateReading.IsRecordOf (blocks.filter Block.completes) records) ↔
        templateReading.NothingCarried blocks)) ∧
    ∀ blocks : List (Block authorityLabels "ServiceStatus"),
      BlockDump BlockLines Blank blocks text → FlagsClosed eval blocks →
      ((∃ records, parseAuthorityData eval inputData = .ok records ∧
          List.Forall₂ (authorityReading eval.alone).IsRecordOf (blocks.filter Block.completes)
            records) ↔
        (authorityReading eval.alone).AllBlocksRead blocks ∧
          (authorityReading eval.alone).NothingCarried blocks) := by
  refine ⟨fun blocks h => certificates_separate_iff h hout, fun blocks h => ?_, fun blocks h => ?_,
    fun blocks h hclosed => ?_⟩
  · have hread : identifiedReading.AllBlocksRead blocks := fun b _ entry _ => ⟨_, rfl⟩
    exact (separate_iff identifiedFormat_plain (by decide) h hout).trans (and_iff_right hread)
  · have hread : templateReading.AllBlocksRead blocks := fun b _ entry _ => ⟨_, rfl⟩
    exact (separate_iff templateFormat_plain (by decide) h hout).trans (and_iff_right hread)
  · rw [parseAuthorityData_of_flagsClosed hclosed h hout]
    exact separate_iff (authorityFormat_plain _) (List.mem_of_getLast? rfl) h hout

/-! ### Sample dumps -/

/-- A template without an OID. -/
def nameBlock : Block templateFormat.labels templateFormat.completing :=
  ⟨[("Name", "A")], by decide, by decide, by decide⟩

/-- A template with an OID only. -/
def oidBlock : Block templateFormat.labels templateFormat.completing :=
  ⟨[("OID", "1")], by decide, by decide, by decide⟩

lemma nameBlock_lines : BlockLines nameBlock ["Name : A".toList] := by
  refine ⟨by simp, ?_, .item ⟨by decide, by decide⟩ .nil⟩
  simpa using ⟨'N', "ame : A".toList, rfl, by decide⟩

lemma oidBlock_lines : BlockLines oidBlock ["OID : 1".toList] := by
  refine ⟨by simp, ?_, .item ⟨by decide, by decide⟩ .nil⟩
  simpa using ⟨'O', "ID : 1".toList, rfl, by decide⟩

def separateText : String := String.ofList (unlines ["OID : 1".toList, [], "Name : A".toList])

def bleedingText : String := String.ofList (unlines ["Name : A".toList, [], "OID : 1".toList])

lemma separate_blockDump : BlockDump BlockLines Blank [oidBlock, nameBlock] separateText :=
  @BlockDump.mk _ _ _ _ _ [] _ (by simp)
    (.cons oidBlock_lines (by simp) (by decide : ∀ l ∈ [[]], Blank l) (.last nameBlock_lines))
    (by decide) String.toList_ofList

lemma bleeding_blockDump : BlockDump BlockLines Blank [nameBlock, oidBlock] bleedingText :=
  @BlockDump.mk _ _ _ _ _ [] _ (by simp)
    (.cons nameBlock_lines (by simp) (by decide : ∀ l ∈ [[]], Blank l) (.last oidBlock_lines))
    (by decide) String.toList_ofList

/-- A certificate with a template. -/
def webBlock : CertificateBlock := ⟨some "A".toList, some ["B".toList]⟩

/-- A certificate without a template. -/
def plainBlock : CertificateBlock := ⟨none, some ["C".toList]⟩

def webLines : List (List Char) := ["CertificateTemplate : A".toList, "RawCertificate : B".toList]

def plainLines : List (List Char) := ["RawCertificate : C".toList, "RowId : 1".toList]

lemma webBlock_lines : CertificateLines webBlock webLines :=
  @CertificateLines.complete (some "A".toList) ["CertificateTemplate : A".toList] [] []
    "B".toList "RawCertificate : B".toList []
    (.item ⟨by decide, by decide⟩ .nil) ⟨by decide, by decide⟩ .nil (by simp)

lemma plainBlock_lines : CertificateLines plainBlock plainLines :=
  @CertificateLines.complete none [] [] ["RowId : 1".toList] "C".toList
    "RawCertificate : C".toList [] .nil ⟨by decide, by decide⟩ .nil
    (by simpa using ⟨by decide, 'R', "owId : 1".toList, rfl, by decide⟩)

/-- The two certificates, with a blank line in between. -/
def certificateText (separator : List Char) : String :=
  String.ofList (unlines (webLines ++ ([separator] ++ plainLines)))

lemma certificate_blockDump {separator : List Char} (hblank : Blank separator)
    (hnewline : '\n' ∉ separator) :
    BlockDump CertificateLines Blank [webBlock, plainBlock] (certificateText separator) := by
  refine @BlockDump.mk _ _ _ _ _ [] _ (by simp)
    (.cons webBlock_lines (by simp) (by simpa using hblank) (.last plainBlock_lines)) ?_
    String.toList_ofList
  intro l hl
  simp only [List.nil_append, List.mem_append, List.mem_singleton] at hl
  rcases hl with hl | rfl | hl
  · exact (by decide : ∀ l ∈ webLines, '\n' ∉ l) l hl
  · exact hnewline
  · exact (by decide : ∀ l ∈ plainLines, '\n' ∉ l) l hl

def cutOffText : String := String.ofList (unlines webLines)

lemma cutOff_blockDump : BlockDump CertificateLines Blank [webBlock] cutOffText :=
  @BlockDump.mk _ _ _ _ _ [] _ (by simp) (.last webBlock_lines) (by decide) String.toList_ofList

/-- A blank line of less than six spaces ends the first certificate. -/
lemma certificateText_ended :
    Ended ([webBlock, plainBlock].map recordTemplate) (certEvents (certificateText [])) := by
  have hevents : certEvents (certificateText []) =
      [.template "A".toList] ++ .certificate :: ([] ++ .ends :: ([] ++ .certificate ::
        ([] ++ .ends :: []))) := by decide
  rw [hevents]
  exact .cons (by decide) (by simp) rfl (.cons (by decide) (by simp) rfl (.rest (by decide)))

/-- A certification authority with a name and a flag. -/
def rootBlock : Block authorityLabels "ServiceStatus" :=
  ⟨[("Name", "A"), ("IsRoot", "True"), ("ServiceStatus", "R")], by decide, by decide, by decide⟩

/-- A certification authority without a name. -/
def namelessBlock : Block authorityLabels "ServiceStatus" :=
  ⟨[("IsRoot", "False"), ("ServiceStatus", "R")], by decide, by decide, by decide⟩

def rootLines : List (List Char) :=
  ["Name : A".toList, "IsRoot : True".toList, "ServiceStatus : R".toList]

def namelessLines : List (List Char) := ["IsRoot : False".toList, "ServiceStatus : R".toList]

lemma rootBlock_lines : BlockLines rootBlock rootLines := by
  refine ⟨by simp [rootLines], ?_, .item ⟨by decide, by decide⟩ (.item ⟨by decide, by decide⟩
    (.item ⟨by decide, by decide⟩ .nil))⟩
  simpa [rootLines] using ⟨⟨'N', "ame : A".toList, rfl, by decide⟩,
    ⟨'I', "sRoot : True".toList, rfl, by decide⟩, 'S', "erviceStatus : R".toList, rfl, by decide⟩

lemma namelessBlock_lines : BlockLines namelessBlock namelessLines := by
  refine ⟨by simp [namelessLines], ?_, .item ⟨by decide, by decide⟩
    (.item ⟨by decide, by decide⟩ .nil)⟩
  simpa [namelessLines] using ⟨⟨'I', "sRoot : False".toList, rfl, by decide⟩,
    'S', "erviceStatus : R".toList, rfl, by decide⟩

def authorityText : String := String.ofList (unlines (rootLines ++ ([[]] ++ namelessLines)))

lemma authority_blockDump : BlockDump BlockLines Blank [rootBlock, namelessBlock] authorityText :=
  @BlockDump.mk _ _ _ _ _ [] _ (by simp)
    (.cons rootBlock_lines (by simp) (by decide : ∀ l ∈ [[]], Blank l) (.last namelessBlock_lines))
    (by decide) String.toList_ofList

lemma evalBoolean_closed (text : String) : evalBoolean.Closed text := by
  intro frame
  rw [Evaluator.alone, evalBoolean, evalBoolean]
  cases booleanValue text <;> rfl

/-- Two certificates, an OID before a name, and two certification authorities. -/
theorem records_separate_sample :
    parseCertificates (printedText (certificateText [])) =
      .ok (([webBlock, plainBlock].filter completes).map CertificateBlock.record) ∧
    (∃ records, parseTemplateData (printedText separateText) = .ok records ∧
      List.Forall₂ templateReading.IsRecordOf ([oidBlock, nameBlock].filter Block.completes)
        records) ∧
    ∃ records, parseAuthorityData evalBoolean (printedText authorityText) = .ok records ∧
      List.Forall₂ (authorityReading evalBoolean.alone).IsRecordOf
        ([rootBlock, namelessBlock].filter Block.completes) records := by
  obtain ⟨hcertificates, -⟩ :=
    records_separate_iff evalBoolean (printedText_stdOut (certificateText []))
  obtain ⟨-, -, htemplates, -⟩ := records_separate_iff evalBoolean (printedText_stdOut separateText)
  obtain ⟨-, -, -, hauthorities⟩ :=
    records_separate_iff evalBoolean (printedText_stdOut authorityText)
  refine ⟨(hcertificates _ (certificate_blockDump (by decide) (by decide))).mpr
    certificateText_ended, (htemplates _ separate_blockDump).mpr ?_,
    (hauthorities _ authority_blockDump fun _ _ entry _ _ => evalBoolean_closed _).mpr ⟨?_, ?_⟩⟩
  · intro p hp label _ _ value hvalue
    obtain rfl : p = ([], oidBlock) := List.mem_singleton.mp hp
    cases hvalue
  · intro b hb entry hentry
    fin_cases hb <;> fin_cases hentry <;> exact ⟨_, rfl⟩
  · intro p hp label _ _ value hvalue
    replace hp : p ∈ [([], rootBlock), ([], namelessBlock)] := hp
    fin_cases hp <;> cases hvalue

/-- `eval` where a text is a name of the first record. -/
def firstName : Evaluator := fun frame text =>
  if text = "result[0].name" then
    match frame.result with
    | ca :: _ => .ok (frame.keep (.str ca.name))
    | [] => .error .indexError
  else .error .syntaxError

def openText : String := String.ofList (unlines ["Name : A".toList, "ServiceStatus : R".toList, [],
  "IsRoot : result[0].name".toList, "ServiceStatus : R".toList])

/-- A name is taken over by the next template; the certificate of the last block
is dropped; a blank line of six spaces merges two certificates; and a flag takes
the name of another record. -/
theorem records_bleed :
    (BlockDump BlockLines Blank [nameBlock, oidBlock] bleedingText ∧
      ¬ ∃ records, parseTemplateData (printedText bleedingText) = .ok records ∧
        List.Forall₂ templateReading.IsRecordOf ([nameBlock, oidBlock].filter Block.completes)
          records) ∧
    (BlockDump CertificateLines Blank [webBlock] cutOffText ∧
      parseCertificates (printedText cutOffText) ≠
        .ok (([webBlock].filter completes).map CertificateBlock.record)) ∧
    (BlockDump CertificateLines Blank [webBlock, plainBlock]
        (certificateText "      ".toList) ∧
      parseCertificates (printedText (certificateText "      ".toList)) = .ok [⟨"A", "BC"⟩]) ∧
    parseAuthorityData firstName (printedText openText) =
      .ok [⟨"A", "", "", "", "", .str "", .str "", .str "", .str "R"⟩,
        ⟨"", "", "", "", "", .str "", .str "A", .str "", .str "R"⟩] := by
  refine ⟨⟨bleeding_blockDump, fun h => ?_⟩, ⟨cutOff_blockDump, fun h => ?_⟩,
    ⟨certificate_blockDump (by decide) (by decide), ?_⟩, ?_⟩
  · have hiff := @separate_iff _ _ _ _ _ templateReading templateFormat_plain (by decide)
      bleeding_blockDump (printedText_stdOut _)
    have hsegment : ([nameBlock], oidBlock) ∈ segments Block.completes [nameBlock, oidBlock] :=
      List.mem_singleton.mpr rfl
    have hcarried := (hiff.mp h).2 _ hsegment "Name" (by decide) (by decide) "A" (by decide)
    exact absurd hcarried (by decide)
  · have hlines : lines (strip cutOffText.toList) = webLines := by decide
    have hparse : parseCertificates (printedText cutOffText) = .ok [] := by
      rw [parseCertificates, dumpLines_printedText, hlines]
      rfl
    rw [hparse] at h
    cases h
  · have hlines : lines (strip (certificateText "      ".toList).toList) =
        webLines ++ (["      ".toList] ++ plainLines) := by decide
    rw [parseCertificates, dumpLines_printedText, hlines]
    rfl
  · have hlines : lines (strip openText.toList) = ["Name : A".toList, "ServiceStatus : R".toList,
        [], "IsRoot : result[0].name".toList, "ServiceStatus : R".toList] := by decide
    rw [parseAuthorityData, dumpLines_printedText, hlines]
    rfl

end AdcsConnector
