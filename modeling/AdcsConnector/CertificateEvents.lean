/-
The certificate dump as a sequence of events: a template, a certificate, the end
of a certificate.

* `certEvent`: what a line means to `parse_certificates`;
* `Reader.line`: the machine with the certificate it is in as one text;
  `certStep` does the same (`exists_foldlM_certStep`);
* `Ended`: every certificate is ended before the next one begins, and has the
  template it is to have by then;
* `result_eq_iff_ended`: exactly then every certificate makes a record of its own.
-/
import AdcsConnector.Records

namespace AdcsConnector

open Text

/-! ### Events -/

/-- What a line of a certificate dump means: the template of the next record, the
first line of a certificate, or the end of the certificate that is read. -/
inductive CertEvent
  | template (value : List Char)
  | certificate
  | ends
  deriving DecidableEq

def CertEvent.template? : CertEvent → Option (List Char)
  | template value => some value
  | _ => none

/-- The value of a labelled line. -/
def lineValue (line : List Char) : List Char :=
  match getValueFromLine line with
  | .ok value => value
  | .error _ => []

/-- The event of a line. A line indented by six spaces is none: it can only
continue a certificate. -/
def certEvent (line : List Char) : Option CertEvent :=
  if startsWith line "      " then none
  else if startsWith line "CertificateTemplate " then some (.template (lineValue line))
  else if startsWith line "RawCertificate " then some .certificate
  else some .ends

/-- What a line adds to the certificate. -/
def certContent (line : List Char) : List Char :=
  if startsWith line "      " then strip line else lineValue line

/-- The template that the last of the events gives, `template` being the one
before them. -/
def lastTemplate (template : List Char) (events : List CertEvent) : List Char :=
  (events.filterMap CertEvent.template?).getLastD template

/-- Every certificate is ended before the next one begins, and the templates
between two ends leave the one its record is to have. -/
inductive Ended : List (List Char) → List CertEvent → Prop
  | rest {events} (h : .certificate ∉ events) : Ended [] events
  | cons {template templates before between rest} (hbefore : .certificate ∉ before)
      (hbetween : ∀ event ∈ between, event.template?.isSome)
      (htemplate : lastTemplate [] (before ++ between) = template)
      (hrest : Ended templates rest) :
      Ended (template :: templates) (before ++ .certificate :: (between ++ .ends :: rest))

/-! ### The machine on events -/

def certRecord (template cert : List Char) : ParseResult :=
  ⟨String.ofList template, String.ofList (certData [cert])⟩

/-- The local variables of `parse_certificates`, with the text of the certificate
it is in, if any. -/
structure Reader where
  certificate : Option (List Char)
  template : List Char
  result : List ParseResult

/-- An event, with what its line adds to the certificate. -/
def Reader.event (st : Reader) (event : CertEvent × List Char) : Reader :=
  match event.1 with
  | .template value => { st with template := value }
  | .certificate => { st with certificate := some (st.certificate.getD [] ++ event.2) }
  | .ends =>
      match st.certificate with
      | none => st
      | some cert => ⟨none, [], st.result ++ [certRecord st.template cert]⟩

def Reader.line (st : Reader) (line : List Char) : Reader :=
  match certEvent line with
  | none => { st with certificate := st.certificate.map (· ++ certContent line) }
  | some event => st.event (event, certContent line)

/-- The certificates of a sequence of events. -/
def certificates (events : List (CertEvent × List Char)) : List (List Char) :=
  (events.filter (·.1 = .certificate)).map Prod.snd

variable {template cert : List Char} {result : List ParseResult}
  {events : List (CertEvent × List Char)}

lemma certificates_append (events events' : List (CertEvent × List Char)) :
    certificates (events ++ events') = certificates events ++ certificates events' := by
  simp [certificates]

lemma certificates_eq_nil :
    certificates events = [] ↔ ∀ p ∈ events, p.1 ≠ .certificate := by
  simp [certificates, List.filter_eq_nil_iff]

lemma not_mem_map_fst_iff : .certificate ∉ events.map Prod.fst ↔
    ∀ p ∈ events, p.1 ≠ .certificate := by
  rw [List.mem_map, not_exists]
  exact forall_congr' fun p => not_and

lemma ne_certificate_of_isSome {event : CertEvent} (h : event.template?.isSome) :
    event ≠ .certificate := by
  rintro rfl
  cases h

lemma lastTemplate_cons (event : CertEvent) (es : List CertEvent) :
    lastTemplate template (event :: es) = lastTemplate (event.template?.getD template) es := by
  cases event with
  | template value =>
      have hmap : (CertEvent.template value :: es).filterMap CertEvent.template? =
          value :: es.filterMap CertEvent.template? := rfl
      rw [lastTemplate, hmap, List.getLastD_cons]
      rfl
  | certificate => rfl
  | ends => rfl

lemma lastTemplate_append (es es' : List CertEvent) :
    lastTemplate template (es ++ es') = lastTemplate (lastTemplate template es) es' := by
  induction es generalizing template with
  | nil => rfl
  | cons event es ih => rw [List.cons_append, lastTemplate_cons, lastTemplate_cons, ih]

/-- Outside of a certificate, only templates matter. -/
lemma foldl_outside (h : ∀ p ∈ events, p.1 ≠ .certificate) :
    events.foldl Reader.event ⟨none, template, result⟩ =
      ⟨none, lastTemplate template (events.map Prod.fst), result⟩ := by
  induction events generalizing template with
  | nil => rfl
  | cons p events ih =>
      rw [List.forall_mem_cons] at h
      obtain ⟨event, content⟩ := p
      rw [List.foldl_cons, List.map_cons, lastTemplate_cons, ← ih h.2]
      cases event with
      | template value => rfl
      | certificate => exact absurd rfl h.1
      | ends => rfl

/-- In a certificate, templates leave the certificate alone. -/
lemma foldl_templates (h : ∀ p ∈ events, p.1.template?.isSome) :
    events.foldl Reader.event ⟨some cert, template, result⟩ =
      ⟨some cert, lastTemplate template (events.map Prod.fst), result⟩ := by
  induction events generalizing template with
  | nil => rfl
  | cons p events ih =>
      rw [List.forall_mem_cons] at h
      obtain ⟨event, content⟩ := p
      rw [List.foldl_cons, List.map_cons, lastTemplate_cons, ← ih h.2]
      cases event with
      | template value => rfl
      | certificate => cases h.1
      | ends => cases h.1

/-- The records so far stay as they are. -/
lemma foldl_result (certificate : Option (List Char)) :
    (events.foldl Reader.event ⟨certificate, template, result⟩).result =
      result ++ (events.foldl Reader.event ⟨certificate, template, []⟩).result := by
  induction events generalizing certificate template result with
  | nil => simp
  | cons p events ih =>
      obtain ⟨event, content⟩ := p
      rw [List.foldl_cons, List.foldl_cons]
      cases event with
      | template value => exact ih _
      | certificate => exact ih _
      | ends =>
          cases certificate with
          | none => exact ih _
          | some cert =>
              have hone := @ih [] (result ++ [certRecord template cert]) none
              have htwo := @ih [] [certRecord template cert] none
              simp only [Reader.event, List.nil_append] at hone htwo ⊢
              rw [hone, htwo, List.append_assoc]

/-- There are no more records than certificates. -/
lemma length_result_le (certificate : Option (List Char)) :
    (events.foldl Reader.event ⟨certificate, template, []⟩).result.length ≤
      (certificates events).length + certificate.toList.length := by
  induction events generalizing certificate template with
  | nil => simp
  | cons p events ih =>
      obtain ⟨event, content⟩ := p
      rw [List.foldl_cons]
      cases event with
      | template value => exact ih _
      | certificate =>
          refine (ih _).trans ?_
          simp [certificates]
      | ends =>
          cases certificate with
          | none => exact ih _
          | some cert =>
              have hrest := @ih [] none
              simp only [Reader.event, List.nil_append]
              rw [foldl_result]
              simp only [certificates] at hrest ⊢
              simp at hrest ⊢
              omega

/-! ### When every certificate makes its record -/

/-- The machine up to the end of a certificate that is ended. -/
lemma foldl_ended {before between rest : List (CertEvent × List Char)}
    {content content' : List Char} (hbefore : ∀ p ∈ before, p.1 ≠ .certificate)
    (hbetween : ∀ p ∈ between, p.1.template?.isSome) :
    ((before ++ (.certificate, content) :: (between ++ (.ends, content') :: rest)).foldl
        Reader.event ⟨none, [], []⟩).result =
      certRecord (lastTemplate [] (before.map Prod.fst ++ between.map Prod.fst)) content ::
        (rest.foldl Reader.event ⟨none, [], []⟩).result := by
  have hbegin : Reader.event ⟨none, lastTemplate [] (before.map Prod.fst), []⟩
      (.certificate, content) = ⟨some content, lastTemplate [] (before.map Prod.fst), []⟩ := rfl
  rw [List.foldl_append, foldl_outside hbefore, List.foldl_cons, hbegin, List.foldl_append,
    foldl_templates hbetween, List.foldl_cons, ← lastTemplate_append]
  exact foldl_result none

lemma certRecord_inj {template template' : List Char} :
    certRecord template cert = certRecord template' cert ↔ template = template' := by
  simp [certRecord, String.ofList_inj]

lemma certificates_of_ended {before between rest : List (CertEvent × List Char)}
    {content content' : List Char} (hbefore : ∀ p ∈ before, p.1 ≠ .certificate)
    (hbetween : ∀ p ∈ between, p.1.template?.isSome) :
    certificates (before ++ (.certificate, content) :: (between ++ (.ends, content') :: rest)) =
      content :: certificates rest := by
  have hno : ∀ p ∈ between, p.1 ≠ .certificate := fun p hp =>
    ne_certificate_of_isSome (hbetween p hp)
  rw [certificates_append, certificates_eq_nil.mpr hbefore]
  have hsplit : certificates ((.certificate, content) :: (between ++ (.ends, content') :: rest)) =
      content :: (certificates between ++ certificates rest) := by
    simp [certificates]
  rw [hsplit, certificates_eq_nil.mpr hno, List.nil_append, List.nil_append]

/-- Ended certificates make their records. -/
lemma Ended.result_eq {templates : List (List Char)} {es : List CertEvent}
    (h : Ended templates es) (hevents : events.map Prod.fst = es) :
    (events.foldl Reader.event ⟨none, [], []⟩).result =
      List.zipWith certRecord templates (certificates events) := by
  induction h generalizing events with
  | rest h =>
      subst hevents
      rw [foldl_outside (not_mem_map_fst_iff.mp h), List.zipWith_nil_left]
  | @cons template templates before between rest hbefore hbetween htemplate hrest ih =>
      obtain ⟨before', tail, rfl, rfl, htail⟩ := List.map_eq_append_iff.mp hevents
      obtain ⟨⟨event, content⟩, tail', rfl, hevent, htail'⟩ := List.map_eq_cons_iff.mp htail
      obtain rfl : event = .certificate := hevent
      obtain ⟨between', tail'', rfl, rfl, hends⟩ := List.map_eq_append_iff.mp htail'
      obtain ⟨⟨event, content'⟩, rest', rfl, hevent, hrest'⟩ := List.map_eq_cons_iff.mp hends
      obtain rfl : event = .ends := hevent
      rw [not_mem_map_fst_iff] at hbefore
      rw [List.forall_mem_map] at hbetween
      rw [foldl_ended hbefore hbetween, certificates_of_ended hbefore hbetween,
        List.zipWith_cons_cons, htemplate, ih hrest']

/-- Certificates that make their records are ended. -/
lemma ended_of_result {templates : List (List Char)}
    (hlength : templates.length = (certificates events).length)
    (h : (events.foldl Reader.event ⟨none, [], []⟩).result =
      List.zipWith certRecord templates (certificates events)) :
    Ended templates (events.map Prod.fst) := by
  -- up to the first certificate, and from there to the first event that is no template
  induction hn : events.length using Nat.strong_induction_on generalizing events templates with
  | _ n ih =>
  cases hfirst : events.find? (·.1 = .certificate) with
  | none =>
      have hno : ∀ p ∈ events, p.1 ≠ .certificate := by
        simpa using List.find?_eq_none.mp hfirst
      rw [certificates_eq_nil.mpr hno] at hlength
      rw [List.length_eq_zero_iff.mp hlength]
      exact .rest (not_mem_map_fst_iff.mpr hno)
  | some p =>
      obtain ⟨hp, before, after, rfl, hbefore⟩ := List.find?_eq_some_iff_append.mp hfirst
      obtain ⟨event, content⟩ := p
      obtain rfl : event = .certificate := by simpa using hp
      have hbefore' : ∀ p ∈ before, p.1 ≠ .certificate := by simpa using hbefore
      have hcertificates : certificates (before ++ (.certificate, content) :: after) =
          content :: certificates after := by
        rw [certificates_append, certificates_eq_nil.mpr hbefore']
        simp [certificates]
      have hcount : (after.foldl Reader.event
          ⟨some content, lastTemplate [] (before.map Prod.fst), []⟩).result.length =
            (certificates after).length + 1 := by
        rw [List.foldl_append, foldl_outside hbefore', List.foldl_cons] at h
        refine (congrArg List.length h).trans ?_
        rw [List.length_zipWith, hlength, hcertificates, Nat.min_self, List.length_cons]
      cases hnext : after.find? fun q => q.1.template?.isNone with
      | none =>
          have htemplates : ∀ p ∈ after, p.1.template?.isSome := by
            simpa [Option.isSome_iff_ne_none] using List.find?_eq_none.mp hnext
          rw [foldl_templates htemplates] at hcount
          simp at hcount
      | some q =>
          obtain ⟨hq, between, rest, rfl, hbetween⟩ := List.find?_eq_some_iff_append.mp hnext
          have hbetween' : ∀ p ∈ between, p.1.template?.isSome := by simpa using hbetween
          obtain ⟨event, content'⟩ := q
          cases event with
          | template value => cases hq
          | certificate =>
              -- the two certificates make one record
              rw [List.foldl_append, foldl_templates hbetween', List.foldl_cons] at hcount
              have hle := @length_result_le (lastTemplate (lastTemplate [] (before.map Prod.fst))
                (between.map Prod.fst)) rest (some (content ++ content'))
              have hmore : (certificates (between ++ (.certificate, content') :: rest)).length =
                  (certificates rest).length + 1 := by
                rw [certificates_append, certificates_eq_nil.mpr fun p hp =>
                  ne_certificate_of_isSome (hbetween' p hp)]
                simp [certificates]
              rw [hmore] at hcount
              simp only [Option.toList_some, List.length_singleton] at hle
              simp only [Reader.event, Option.getD_some] at hcount
              omega
          | ends =>
              rw [certificates_of_ended hbefore' hbetween'] at h hlength
              rw [foldl_ended hbefore' hbetween'] at h
              obtain ⟨template, templates, rfl⟩ := List.exists_cons_of_length_eq_add_one hlength
              rw [List.zipWith_cons_cons, List.cons.injEq, certRecord_inj] at h
              rw [List.map_append, List.map_cons, List.map_append, List.map_cons]
              refine .cons (not_mem_map_fst_iff.mpr hbefore') (List.forall_mem_map.mpr hbetween')
                h.1 (ih _ ?_ (Nat.succ.inj hlength) h.2 rfl)
              rw [← hn]
              simp only [List.length_append, List.length_cons]
              omega

/-- **When every certificate makes a record of its own**: exactly when each one
is ended with its template. -/
theorem result_eq_iff_ended {templates : List (List Char)}
    (hlength : templates.length = (certificates events).length) :
    (events.foldl Reader.event ⟨none, [], []⟩).result =
        List.zipWith certRecord templates (certificates events) ↔
      Ended templates (events.map Prod.fst) :=
  ⟨ended_of_result hlength, fun h => h.result_eq rfl⟩

/-! ### The machine on lines -/

/-- The state of the line machine, with the certificate it is in as one text. -/
def CertState.reader (st : CertState) : Reader :=
  ⟨if st.inCert then some st.cert.flatten else none, st.template, st.result⟩

/-- A line that raises no exception: a labelled line has a value. -/
def HasValue (line : List Char) : Prop := Unrecognised certificateLabels line ∨ ':' ∈ line

variable {line value : List Char}

/-- An indented line has no label. -/
lemma unrecognised_of_indented (h : "      ".toList <+: line) :
    Unrecognised certificateLabels line := by
  obtain ⟨rest, rfl⟩ := h
  intro label hlabel hpre
  rw [← startsWith_iff] at hpre
  fin_cases hlabel <;> cases hpre

/-- A continuation line that is not blank stays one when its end is stripped. -/
lemma continuation_rstrip {l : List Char} (h : "      ".toList <+: l) (hblank : ¬ Blank l) :
    "      ".toList <+: rstrip l := by
  obtain ⟨s, rfl⟩ := h
  have hs : ¬ Blank s := fun hs => hblank fun c hc =>
    (List.mem_append.mp hc).elim ((by decide : Blank "      ".toList) c) (hs c)
  rw [rstrip_append_of_not_blank hs]
  exact List.prefix_append _ _

lemma exists_getValueFromLine (h : ':' ∈ line) : ∃ value, getValueFromLine line = .ok value := by
  obtain ⟨a, b, rfl, ha⟩ := List.eq_append_cons_of_mem h
  exact ⟨strip b, by rw [getValueFromLine, partition_append ha]⟩

/-- What a line can be that raises no exception. -/
lemma HasValue.cases (h : HasValue line) : "      ".toList <+: line ∨
    (Unrecognised certificateLabels line ∧ startsWith line "      " = false) ∨
    (∃ value, IsEntry "CertificateTemplate" value line) ∨
    ∃ value, IsEntry "RawCertificate" value line := by
  by_cases hindent : startsWith line "      " = true
  · exact .inl (startsWith_iff.mp hindent)
  refine .inr ?_
  rw [Bool.not_eq_true] at hindent
  by_cases hunrec : Unrecognised certificateLabels line
  · exact .inl ⟨hunrec, hindent⟩
  refine .inr ?_
  obtain ⟨value, hvalue⟩ := exists_getValueFromLine (h.resolve_left hunrec)
  rw [Unrecognised] at hunrec
  push Not at hunrec
  obtain ⟨label, hlabel, hpre⟩ := hunrec
  fin_cases hlabel
  · exact .inl ⟨value, hpre, hvalue⟩
  · exact .inr ⟨value, hpre, hvalue⟩

lemma HasValue.rstrip (h : HasValue line) : HasValue (rstrip line) := by
  by_cases hunrec : Unrecognised certificateLabels line
  · exact .inl (hunrec.mono (rstrip_isPrefix line))
  · obtain ⟨a, b, rfl, -⟩ := List.eq_append_cons_of_mem (h.resolve_left hunrec)
    have hcolon : ¬ isSpace ':' := by decide
    have hblank : ¬ Blank (':' :: b) := fun hb => hcolon (hb ':' List.mem_cons_self)
    rw [HasValue, rstrip_append_of_not_blank hblank, rstrip_cons hcolon]
    exact .inr (by simp)

lemma certEvent_of_indented (h : "      ".toList <+: line) : certEvent line = none := by
  rw [certEvent, if_pos (startsWith_iff.mpr h)]

lemma certContent_of_indented (h : "      ".toList <+: line) : certContent line = strip line := by
  rw [certContent, if_pos (startsWith_iff.mpr h)]

lemma certEvent_of_template (h : IsEntry "CertificateTemplate" value line) :
    certEvent line = some (.template value) := by
  have hpre : startsWith line "CertificateTemplate " = true := startsWith_iff.mpr h.1
  rw [certEvent, h.startsWith_indent (by decide), hpre, lineValue, h.2]
  rfl

lemma certEvent_of_raw (h : IsEntry "RawCertificate" value line) :
    certEvent line = some .certificate := by
  have hother : startsWith line "CertificateTemplate " = false := by
    obtain ⟨⟨rest, rfl⟩, -⟩ := h
    rfl
  have hpre : startsWith line "RawCertificate " = true := startsWith_iff.mpr h.1
  rw [certEvent, h.startsWith_indent (by decide), hother, hpre]
  rfl

lemma certContent_of_raw (h : IsEntry "RawCertificate" value line) : certContent line = value := by
  rw [certContent, h.startsWith_indent (by decide), lineValue, h.2]
  rfl

lemma certEvent_of_unrecognised (h : Unrecognised certificateLabels line)
    (hindent : startsWith line "      " = false) : certEvent line = some .ends := by
  rw [certEvent, hindent, h.startsWith_template, h.startsWith_raw]
  rfl

/-- One line of `parse_certificates` is one line of the machine on events. -/
lemma exists_certStep {st : CertState} (hst : st.inCert = false → st.cert = [])
    (hline : HasValue line) : ∃ st', certStep st line = .ok st' ∧
      (st'.inCert = false → st'.cert = []) ∧ st'.reader = st.reader.line line := by
  obtain ⟨inCert, cert, template, result⟩ := st
  simp only at hst
  rcases hline.cases with hindent | ⟨hunrec, hindent⟩ | ⟨value, hentry⟩ | ⟨value, hentry⟩
  · rw [Reader.line, certEvent_of_indented hindent, certContent_of_indented hindent]
    cases inCert with
    | false => exact ⟨_, certStep_unrecognised (unrecognised_of_indented hindent), hst, rfl⟩
    | true =>
        refine ⟨_, certStep_continuation ⟨hindent, rfl⟩, by simp, ?_⟩
        simp [CertState.reader]
  · rw [Reader.line, certEvent_of_unrecognised hunrec hindent]
    cases inCert with
    | false => exact ⟨_, certStep_unrecognised hunrec, hst, rfl⟩
    | true =>
        refine ⟨_, certStep_stop hunrec hindent, by simp, ?_⟩
        simp [CertState.reader, Reader.event, certRecord, certData]
  · rw [Reader.line, certEvent_of_template hentry]
    exact ⟨_, certStep_template hentry, hst, rfl⟩
  · rw [Reader.line, certEvent_of_raw hentry, certContent_of_raw hentry]
    refine ⟨_, certStep_raw hentry, by simp, ?_⟩
    cases inCert with
    | false => simp [CertState.reader, Reader.event, hst rfl]
    | true => simp [CertState.reader, Reader.event]

lemma exists_foldlM_certStep {st : CertState} (hst : st.inCert = false → st.cert = [])
    {ls : List (List Char)} (hls : ∀ l ∈ ls, HasValue l) :
    ∃ st', ls.foldlM certStep st = .ok st' ∧ st'.reader = ls.foldl Reader.line st.reader := by
  induction ls generalizing st with
  | nil => exact ⟨st, rfl, rfl⟩
  | cons l ls ih =>
      rw [List.forall_mem_cons] at hls
      obtain ⟨st₁, hstep, hst₁, hreader⟩ := exists_certStep hst hls.1
      obtain ⟨st', hfold, hreader'⟩ := ih hst₁ hls.2
      refine ⟨st', (Rows.foldlM_cons_of_ok hstep ls).trans hfold, ?_⟩
      rw [hreader', hreader, List.foldl_cons]

/-- The lines of an output. -/
def outputLines (text : String) : List (List Char) := lines (strip text.toList)

/-- **`parse_certificates` is the machine on events**, on every output whose
labelled lines have values. -/
theorem parseCertificates_eq {text : String} (hls : ∀ l ∈ outputLines text, HasValue l)
    {inputData : Response} (hout : inputData.stdOut = text.toUTF8) :
    parseCertificates inputData =
      .ok ((outputLines text).foldl Reader.line ⟨none, [], []⟩).result := by
  obtain ⟨st', hfold, hreader⟩ := @exists_foldlM_certStep ⟨false, [], [], []⟩ (fun _ => rfl) _ hls
  rw [parseCertificates, dumpLines, hout, decode_toUTF8]
  simp only [Except.map, bind, Except.bind, pure, Except.pure]
  rw [outputLines] at hfold
  rw [hfold]
  exact congrArg (fun st : Reader => Except.ok st.result) hreader

/-! ### Lines read as events -/

/-- The lines do to the machine what the events do. -/
structure Reads (ls : List (List Char)) (events : List (CertEvent × List Char)) : Prop where
  events_eq : ls.filterMap certEvent = events.map Prod.fst
  foldl_eq : ∀ st, ls.foldl Reader.line st = events.foldl Reader.event st

/-- A blank line that is indented adds nothing to a certificate. -/
lemma Reader.line_of_blank (hblank : Blank line) (hindent : "      ".toList <+: line)
    (st : Reader) : st.line line = st := by
  rw [Reader.line, certEvent_of_indented hindent, certContent_of_indented hindent,
    strip_of_blank hblank]
  cases st with
  | mk certificate template result => cases certificate <;> simp

/-- Whitespace at the end of a line that is not blank does not matter. -/
lemma certEvent_rstrip (hline : HasValue line) (hblank : ¬ Blank line) :
    certEvent (rstrip line) = certEvent line ∧ ∀ st : Reader,
      st.line (rstrip line) = st.line line := by
  have hstart : ∀ {label value}, label ∈ certificateLabels → IsEntry label value line →
      IsEntry label value (rstrip line) := by
    intro label value hlabel hentry
    have hplain : plainLabel label := (by decide : ∀ l ∈ certificateLabels, plainLabel l) _ hlabel
    have hcolon := colon_mem_of_getValueFromLine hentry.2
    exact ⟨(begins_rstrip_iff hplain hcolon).mpr hentry.1,
      (getValueFromLine_rstrip hcolon).trans hentry.2⟩
  rcases hline.cases with hindent | ⟨hunrec, hindent⟩ | ⟨value, hentry⟩ | ⟨value, hentry⟩
  · have hindent' := continuation_rstrip hindent hblank
    refine ⟨(certEvent_of_indented hindent').trans (certEvent_of_indented hindent).symm,
      fun st => ?_⟩
    rw [Reader.line, Reader.line, certEvent_of_indented hindent', certEvent_of_indented hindent,
      certContent_of_indented hindent', certContent_of_indented hindent, strip_rstrip]
  · have hunrec' := hunrec.mono (rstrip_isPrefix line)
    have hindent' : startsWith (rstrip line) "      " = false :=
      startsWith_eq_false.mpr fun h =>
        startsWith_eq_false.mp hindent (h.trans (rstrip_isPrefix line))
    refine ⟨(certEvent_of_unrecognised hunrec' hindent').trans
      (certEvent_of_unrecognised hunrec hindent).symm, fun st => ?_⟩
    rw [Reader.line, Reader.line, certEvent_of_unrecognised hunrec' hindent',
      certEvent_of_unrecognised hunrec hindent]
    rfl
  · have hentry' := hstart (by decide) hentry
    refine ⟨(certEvent_of_template hentry').trans (certEvent_of_template hentry).symm,
      fun st => ?_⟩
    rw [Reader.line, Reader.line, certEvent_of_template hentry', certEvent_of_template hentry]
    rfl
  · have hentry' := hstart (by decide) hentry
    refine ⟨(certEvent_of_raw hentry').trans (certEvent_of_raw hentry).symm, fun st => ?_⟩
    rw [Reader.line, Reader.line, certEvent_of_raw hentry', certEvent_of_raw hentry,
      certContent_of_raw hentry', certContent_of_raw hentry]

/-- Continuation lines add to the certificate. -/
lemma foldl_continuations {parts conts : List (List Char)}
    (h : List.Forall₂ IsContinuation parts conts) :
    conts.foldl Reader.line ⟨some cert, template, result⟩ =
      ⟨some (cert ++ parts.flatten), template, result⟩ := by
  induction h generalizing cert with
  | nil => simp
  | @cons part l parts conts hl _ ih =>
      have hstep : Reader.line ⟨some cert, template, result⟩ l =
          ⟨some (cert ++ part), template, result⟩ := by
        rw [Reader.line, certEvent_of_indented hl.1, certContent_of_indented hl.1, hl.2]
        rfl
      rw [List.foldl_cons, hstep, ih, List.flatten_cons, List.append_assoc]

namespace Reads

variable {ls ls' : List (List Char)} {events' : List (CertEvent × List Char)}

lemma nil : Reads [] [] := ⟨rfl, fun _ => rfl⟩

lemma append (h : Reads ls events) (h' : Reads ls' events') :
    Reads (ls ++ ls') (events ++ events') where
  events_eq := by rw [List.filterMap_append, List.map_append, h.events_eq, h'.events_eq]
  foldl_eq st := by rw [List.foldl_append, List.foldl_append, h.foldl_eq, h'.foldl_eq]

lemma of_certEvent {event : CertEvent} (h : certEvent line = some event) :
    Reads [line] [(event, certContent line)] where
  events_eq := by
    rw [List.filterMap_cons_some h]
    rfl
  foldl_eq st := by
    rw [List.foldl_cons, Reader.line, h]
    rfl

lemma of_blank (hblank : Blank line) (hindent : "      ".toList <+: line) : Reads [line] [] where
  events_eq := List.filterMap_cons_none (certEvent_of_indented hindent)
  foldl_eq st := Reader.line_of_blank hblank hindent st

/-- The lines of a certificate. -/
lemma certificate {raw : List Char} {parts conts : List (List Char)}
    (hraw : IsEntry "RawCertificate" value raw) (hconts : List.Forall₂ IsContinuation parts conts) :
    Reads (raw :: conts) [(.certificate, (value :: parts).flatten)] where
  events_eq := by
    have hnone : conts.filterMap certEvent = [] := by
      rw [List.filterMap_eq_nil_iff]
      intro l hl
      obtain ⟨part, -, hcont⟩ := Rows.exists_of_forall₂_mem_right hconts hl
      exact certEvent_of_indented hcont.1
    rw [List.filterMap_cons_some (certEvent_of_raw hraw), hnone]
    rfl
  foldl_eq st := by
    have hstep : st.line raw =
        ⟨some (st.certificate.getD [] ++ value), st.template, st.result⟩ := by
      rw [Reader.line, certEvent_of_raw hraw, certContent_of_raw hraw]
      rfl
    rw [List.foldl_cons, hstep, foldl_continuations hconts, List.append_assoc]
    rfl

/-- Blank lines that are indented, and the whitespace at the end of the last
other line, are not missed. -/
lemma trimEnd (h : Reads ls events) (hvalue : ∀ l ∈ ls, HasValue l)
    (hblank : ∀ l ∈ ls, Blank l → "      ".toList <+: l) : Reads (trimEnd ls) events := by
  have hskip : ∀ ls : List (List Char), (∀ l ∈ ls, Blank l) →
      (∀ l ∈ ls, Blank l → "      ".toList <+: l) →
        ls.filterMap certEvent = [] ∧ ∀ st, ls.foldl Reader.line st = st := by
    intro ls hls hindent
    induction ls with
    | nil => exact ⟨rfl, fun _ => rfl⟩
    | cons l ls ih =>
        rw [List.forall_mem_cons] at hls hindent
        have hl := hindent.1 hls.1
        rw [List.filterMap_cons_none (certEvent_of_indented hl)]
        refine ⟨(ih hls.2 hindent.2).1, fun st => ?_⟩
        rw [List.foldl_cons, Reader.line_of_blank hls.1 hl, (ih hls.2 hindent.2).2]
  have htrim : (Text.trimEnd ls).filterMap certEvent = ls.filterMap certEvent ∧
      ∀ st, (Text.trimEnd ls).foldl Reader.line st = ls.foldl Reader.line st := by
    clear h
    induction ls with
    | nil => exact ⟨rfl, fun _ => rfl⟩
    | cons l ls ih =>
        rw [List.forall_mem_cons] at hvalue hblank
        rw [Text.trimEnd]
        split_ifs with hrest hl
        · have hall := hskip (l :: ls) (List.forall_mem_cons.mpr ⟨hl, hrest⟩)
            (List.forall_mem_cons.mpr hblank)
          exact ⟨hall.1.symm, fun st => (hall.2 st).symm⟩
        · have hnone := hskip ls hrest hblank.2
          have hrstrip := certEvent_rstrip hvalue.1 hl
          refine ⟨?_, fun st => ?_⟩
          · rw [List.filterMap_cons, List.filterMap_cons, hrstrip.1, hnone.1]
            rfl
          · rw [List.foldl_cons, List.foldl_cons, hrstrip.2, hnone.2]
            rfl
        · obtain ⟨hfilter, hfold⟩ := ih hvalue.2 hblank.2
          refine ⟨?_, fun st => ?_⟩
          · rw [List.filterMap_cons, List.filterMap_cons, hfilter]
          · rw [List.foldl_cons, List.foldl_cons, hfold]
  exact ⟨htrim.1.trans h.events_eq, fun st => (htrim.2 st).trans (h.foldl_eq st)⟩

end Reads

end AdcsConnector
