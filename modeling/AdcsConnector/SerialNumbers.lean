/-
Certificates by serial number: what `identify` and `revoke` ask the database of
a certification authority for, and what comes back.

* `AdcsDatabaseRow`: a row, which keeps its serial number as text;
* `identifyQuery`, `revokeCommand`: the scripts around their filter;
* `selected_serialFilter_iff`: the filter of the services selects the rows of a
  serial number whose text has evenly many digits, and no others;
* `Host.AnswersFrom`: a host that answers from a database;
* `serial_answered_iff`: `identify` answers what the database says, and `revoke`
  addresses the same certificate, exactly when the text of the serial number has
  evenly many digits, or when there is no such certificate.
-/
import AdcsConnector.CertificateManagement
import AdcsConnector.FormatList
import AdcsConnector.Library.Digits

namespace AdcsConnector

open Program

/-! ### The database -/

/-- A row of the database of a certification authority. -/
structure AdcsDatabaseRow where
  serialNumber : ℕ
  disposition : ℤ
  certificateTemplate : String
  configString : String
  deriving DecidableEq

/-- The filter on the serial number. -/
def serialFilter (serialNumber : String) : String := "SerialNumber -eq " ++ serialNumber

namespace AdcsDatabaseRow

/-- The serial number as it is kept, two digits for every octet. -/
def serialText (row : AdcsDatabaseRow) : String := String.ofList (Digits.octets row.serialNumber)

/-- The row passes a filter on the serial number: the texts are compared. -/
def Selected (filter : String) (row : AdcsDatabaseRow) : Prop :=
  filter = serialFilter row.serialText

instance (filter : String) : DecidablePred (Selected filter) := fun _ =>
  inferInstanceAs (Decidable (_ = _))

/-- The row passes `Request.Disposition -ge 12` and `Request.Disposition -le 21`. -/
def Listed (row : AdcsDatabaseRow) : Prop := 12 ≤ row.disposition ∧ row.disposition ≤ 21

instance : DecidablePred Listed := fun _ => inferInstanceAs (Decidable (_ ∧ _))

/-- The row is one of those `Get-IssuedRequest` reads. -/
def Issued (row : AdcsDatabaseRow) : Prop := row.disposition = 20

lemma Issued.listed {row : AdcsDatabaseRow} (h : row.Issued) : row.Listed := by
  rw [Issued] at h
  rw [Listed, h]
  omega

/-- The properties printed. -/
def properties (row : AdcsDatabaseRow) : IdentifiedCertificate :=
  ⟨row.certificateTemplate, row.serialText, row.configString⟩

end AdcsDatabaseRow

open AdcsDatabaseRow

/-- The rows of a serial number among those that are listed. -/
def rowsOfSerial (db : List AdcsDatabaseRow) (n : ℕ) : List AdcsDatabaseRow :=
  db.filter fun row => row.serialNumber = n ∧ row.Listed

/-- The rows that a filter selects among those that are listed. -/
def selectedRows (db : List AdcsDatabaseRow) (filter : String) : List AdcsDatabaseRow :=
  db.filter fun row => row.Selected filter ∧ row.Listed

/-! ### The filter of the services -/

/-- The script of `identify` around its filter. -/
def identifyQuery (ca : AuthorityData) (filter : String) : String :=
  importModule ++ "\n" ++ "Get-CertificationAuthority -Name \"" ++ ca.name ++
    "\" | Get-AdcsDatabaseRow" ++ " -Filter \"" ++ filter ++
    ("\", \"Request.Disposition -ge 12\", \"Request.Disposition -le 21\"" ++
      " -Property \"SerialNumber\", \"CertificateTemplate\", \"ConfigString\"")

/-- The script of `revoke` around its filter. -/
def revokeCommand (ca : AuthorityData) (filter : String)
    (reason : CertificateRevocationReason) : String :=
  importModule ++ "\n" ++ "Get-CertificationAuthority -Name \"" ++ ca.name ++
    "\" | Get-IssuedRequest -Filter" ++ " \"" ++ filter ++
    ("\" | Revoke-Certificate -Reason \"" ++ reason.toStringPsValue ++ "\"")

lemma identifyCertificateScript_eq (serialNumber : String) (ca : AuthorityData) :
    identifyCertificateScript serialNumber ca = identifyQuery ca (serialFilter serialNumber) := by
  have hfilter : " -Filter \"SerialNumber -eq " = " -Filter \"" ++ "SerialNumber -eq " := by
    decide +kernel
  unfold identifyCertificateScript identifyQuery serialFilter
  simp only [String.intercalate_cons_cons, String.intercalate_singleton, hfilter,
    String.append_assoc]

lemma revokeScript_eq (ca : AuthorityData) (serialNumber : String)
    (reason : CertificateRevocationReason) :
    revokeScript ca serialNumber reason = revokeCommand ca (serialFilter serialNumber) reason := by
  have hfilter : " \"SerialNumber -eq " = " \"" ++ "SerialNumber -eq " := by decide +kernel
  unfold revokeScript revokeCommand serialFilter
  simp only [String.intercalate_cons_cons, String.intercalate_singleton, hfilter,
    String.append_assoc]

/-- Different filters give different scripts. -/
lemma identifyQuery_injective (ca : AuthorityData) : Function.Injective (identifyQuery ca) := by
  intro filter filter' h
  exact (String.append_right_inj _).mp ((String.append_left_inj _).mp h)

lemma revokeCommand_injective (ca : AuthorityData) (reason : CertificateRevocationReason) :
    Function.Injective fun filter => revokeCommand ca filter reason := by
  intro filter filter' h
  exact (String.append_right_inj _).mp ((String.append_left_inj _).mp h)

lemma formatHex_natCast (n : ℕ) : formatHex n = String.ofList (Nat.toDigits 16 n) := by
  rw [formatHex, if_neg (by omega), Int.natAbs_natCast, String.empty_append]

/-- The filter of the services selects the rows of the serial number when its
text has evenly many digits, and else none. -/
lemma selected_serialFilter_iff {row : AdcsDatabaseRow} {n : ℕ} :
    row.Selected (serialFilter (formatHex n)) ↔
      row.serialNumber = n ∧ Even (Nat.toDigits 16 n).length := by
  unfold Selected serialFilter
  rw [String.append_right_inj, formatHex_natCast, serialText, String.ofList_inj, eq_comm,
    Digits.octets_eq_toDigits_iff]

lemma selectedRows_of_even {n : ℕ} (heven : Even (Nat.toDigits 16 n).length)
    (db : List AdcsDatabaseRow) :
    selectedRows db (serialFilter (formatHex n)) = rowsOfSerial db n := by
  refine List.filter_congr fun row _ => ?_
  simp only [selected_serialFilter_iff, heven, and_true]

lemma selectedRows_of_not_even {n : ℕ} (hodd : ¬ Even (Nat.toDigits 16 n).length)
    (db : List AdcsDatabaseRow) : selectedRows db (serialFilter (formatHex n)) = [] := by
  refine List.filter_eq_nil_iff.mpr fun row _ => ?_
  simp only [selected_serialFilter_iff, hodd, and_false, false_and, decide_false]
  exact Bool.false_ne_true

/-! ### The answers of the services -/

/-- The template of a row is the one of the profile. -/
def AdcsDatabaseRow.OfTemplate (template : TemplateData) (row : AdcsDatabaseRow) : Prop :=
  row.certificateTemplate = template.oid ∨ row.certificateTemplate = template.name

/-- An outcome of `identify` says that the certificate has exactly one row, of
the template of the profile, or that it has none, or neither. -/
structure Reports (template : TemplateData) (rows : List AdcsDatabaseRow)
    (outcome : Except PyError (List MetaAttribute)) : Prop where
  ok_iff : (∃ metadata, outcome = .ok metadata) ↔
    ∃ row, rows = [row] ∧ row.OfTemplate template
  notFound_iff : (∃ message, outcome = .error (.notFound message)) ↔ rows = []
  validation_iff : (∃ message, outcome = .error (.validation message)) ↔
    rows ≠ [] ∧ ¬ ∃ row, rows = [row] ∧ row.OfTemplate template

/-- The verdict reports the rows it is given. -/
lemma reports_identifyVerdict (template : TemplateData) (rows : List AdcsDatabaseRow) :
    Reports template rows (identifyVerdict template (rows.map properties)) where
  ok_iff := by
    simp only [identifyVerdict_eq_ok_iff]
    constructor
    · rintro ⟨_, -, certificate, hrows, htemplate⟩
      obtain ⟨row, rfl, rfl⟩ := List.map_eq_singleton_iff.mp hrows
      exact ⟨row, rfl, htemplate⟩
    · rintro ⟨row, rfl, htemplate⟩
      exact ⟨[], rfl, row.properties, rfl, htemplate⟩
  notFound_iff := by rw [identifyVerdict_eq_notFound_iff, List.map_eq_nil_iff]
  validation_iff := by
    match rows with
    | [] => simp [identifyVerdict]
    | [row] =>
        by_cases h : row.certificateTemplate = template.oid ∨
            row.certificateTemplate = template.name <;>
          simp [identifyVerdict, OfTemplate, properties, h]
    | _ :: _ :: _ => simp [identifyVerdict]

/-- A host that answers the queries of `identify` from a database. -/
structure Host.AnswersFrom (host : Host) (ca : AuthorityData) (db : List AdcsDatabaseRow) :
    Prop where
  openShell : ∀ w, host.openShell w = .ok ()
  closeShell : ∀ w, host.closeShell w = .ok ()
  powershell : ∀ w (n : ℕ), ∃ result text,
    host.powershell w (identifyQuery ca (serialFilter (formatHex n))) = .ok result ∧
      result.statusCode = 0 ∧ result.stdOut = text.toUTF8 ∧
      RendersRecords identifiedFormat.labels identifiedFormat.completing
        IdentifiedCertificate.fields
        ((selectedRows db (serialFilter (formatHex n))).map properties) text

section Services

variable {env : ServiceEnvironment} {request : CertificateRequest} {uuid : String} {host : Host}
  {ca : AuthorityData} {template : TemplateData} {reason : CertificateRevocationReason} {n : ℕ}
  {db : List AdcsDatabaseRow}

/-- `identify` ends with the verdict on the rows selected. -/
lemma identify_eq_verdict (hca : getCaFromAttributes request.raProfileAttributes = .ok ca)
    (htemplate : getTemplateFromAttributes request.raProfileAttributes = .ok template)
    (hserial : env.serialNumber request.certificate = .ok (n : ℤ))
    (hsession : createSession env.toEnvironment uuid = .ok host)
    (hanswers : host.AnswersFrom ca db) (w : Wire) :
    ∃ w', identify env request uuid w = some (identifyVerdict template
      ((selectedRows db (serialFilter (formatHex n))).map properties), w') := by
  obtain ⟨result, text, hanswer, hstatus, hout, hrenders⟩ :=
    hanswers.powershell { w with openShells := w.openShells + 1 } n
  have hnumber : getCertificateSerialNumber env request.certificate = .ok (formatHex n) := by
    rw [getCertificateSerialNumber, hserial]
    rfl
  have hconnect : Returns (connect host) w () { w with openShells := w.openShells + 1 } := by
    rw [Returns, connect, hanswers.openShell]
  rw [← identifyCertificateScript_eq] at hanswer
  have haccepts : host.Accepts result := .of_decode _ (hout ▸ decode_toUTF8 text) hstatus
  have hrun := returns_runPs.mpr ⟨hanswer, haccepts, rfl⟩
  have hparse : parseIdentifiedCertificates result =
      .ok ((selectedRows db (serialFilter (formatHex n))).map properties) :=
    hrenders.parse_eq identifiedFormat_plain (by decide) (by decide)
      (fun c _ => identifiedReading_fits c) hout
  have hdisconnect : ∀ sent, Returns (disconnect host) ⟨sent, w.openShells + 1⟩ ()
      ⟨sent, w.openShells⟩ := fun sent => by
    rw [Returns, disconnect, hanswers.closeShell]
    rfl
  refine ⟨⟨w.sent ++ [identifyCertificateScript (formatHex n) ca], w.openShells⟩, ?_⟩
  rw [identify, hca, htemplate, hnumber, hsession, lift_ok, lift_ok, lift_ok, lift_ok]
  simp only [pure_bind]
  rw [hconnect.run_bind, hrun.run_bind, (hdisconnect _).run_bind, hparse, lift_ok, pure_bind]
  rfl

/-- `revoke` sends its script, whatever comes of it. -/
lemma exists_revoke (hca : getCaFromAttributes request.raProfileAttributes = .ok ca)
    (hserial : env.serialNumber request.certificate = .ok (n : ℤ))
    (hreason : CertificateRevocationReason.fromString request.reason = .ok reason)
    (hsession : createSession env.toEnvironment uuid = .ok host)
    (hanswers : host.AnswersFrom ca db) (w : Wire) :
    ∃ outcome w', revoke env request uuid w = some (outcome, w') ∧
      w'.sent = w.sent ++ [revokeCommand ca (serialFilter (formatHex n)) reason] := by
  have hnumber : getCertificateSerialNumber env request.certificate = .ok (formatHex n) := by
    rw [getCertificateSerialNumber, hserial]
    rfl
  have hconnect : Returns (connect host) w () { w with openShells := w.openShells + 1 } := by
    rw [Returns, connect, hanswers.openShell]
  have hscript : getRevokeScript ca (formatHex n) request.reason =
      .ok (revokeScript ca (formatHex n) reason) := by
    rw [getRevokeScript, hreason]
    rfl
  obtain ⟨r, hr⟩ := exists_runPs host (revokeScript ca (formatHex n) reason)
    { w with openShells := w.openShells + 1 }
  rw [← revokeScript_eq, revoke, hca, hnumber, hsession, lift_ok, lift_ok, lift_ok]
  simp only [pure_bind, hscript, lift_ok]
  rw [hconnect.run_bind]
  cases r with
  | error e => exact ⟨_, _, run_bind_eq_some.mpr (.inl ⟨e, hr, rfl⟩), rfl⟩
  | ok result =>
      have hreturns : Returns _ _ _ _ := hr
      rw [hreturns.run_bind, disconnect, hanswers.closeShell]
      exact ⟨_, _, rfl, rfl⟩

/-- `identify` ends with a report of the rows. -/
def IdentifyReports (env : ServiceEnvironment) (request : CertificateRequest) (uuid : String)
    (w : Wire) (template : TemplateData) (rows : List AdcsDatabaseRow) : Prop :=
  ∃ outcome w', identify env request uuid w = some (outcome, w') ∧ Reports template rows outcome

/-- `revoke` sends a script whose filter selects, among the issued rows, those
of the serial number. -/
def RevokeAddresses (env : ServiceEnvironment) (request : CertificateRequest) (uuid : String)
    (w : Wire) (ca : AuthorityData) (reason : CertificateRevocationReason)
    (db : List AdcsDatabaseRow) (n : ℕ) : Prop :=
  ∃ outcome w' filter, revoke env request uuid w = some (outcome, w') ∧
    w'.sent = w.sent ++ [revokeCommand ca filter reason] ∧
    ∀ row ∈ db, row.Issued → (row.Selected filter ↔ row.serialNumber = n)

/-- The filter that `revoke` sends is the one of its serial number. -/
lemma revokeAddresses_iff (hca : getCaFromAttributes request.raProfileAttributes = .ok ca)
    (hserial : env.serialNumber request.certificate = .ok (n : ℤ))
    (hreason : CertificateRevocationReason.fromString request.reason = .ok reason)
    (hsession : createSession env.toEnvironment uuid = .ok host)
    (hanswers : host.AnswersFrom ca db) (w : Wire) :
    RevokeAddresses env request uuid w ca reason db n ↔
      ∀ row ∈ db, row.Issued → row.serialNumber = n → Even (Nat.toDigits 16 n).length := by
  obtain ⟨outcome, w', hrevoke, hsent⟩ := exists_revoke hca hserial hreason hsession hanswers w
  constructor
  · rintro ⟨outcome', t, filter, hrun, hfilter, hselects⟩ row hrow hissued hn
    rw [hrevoke] at hrun
    cases hrun
    rw [hsent, List.append_cancel_left_eq, List.singleton_inj] at hfilter
    obtain rfl := revokeCommand_injective ca reason hfilter
    exact (selected_serialFilter_iff.mp ((hselects row hrow hissued).mpr hn)).2
  · intro heven
    refine ⟨outcome, w', _, hrevoke, hsent, fun row hrow hissued => ?_⟩
    rw [selected_serialFilter_iff]
    exact ⟨And.left, fun hn => ⟨hn, heven row hrow hissued hn⟩⟩

/-- **Certificates by serial number.** Against a host that answers from a
database, `identify` reports the rows of the certificate and `revoke` addresses
the issued ones among them, exactly when the hexadecimal text of the serial
number has evenly many digits, or there are no such rows. -/
theorem serial_answered_iff (hca : getCaFromAttributes request.raProfileAttributes = .ok ca)
    (htemplate : getTemplateFromAttributes request.raProfileAttributes = .ok template)
    (hserial : env.serialNumber request.certificate = .ok (n : ℤ))
    (hreason : CertificateRevocationReason.fromString request.reason = .ok reason)
    (hsession : createSession env.toEnvironment uuid = .ok host)
    (hanswers : host.AnswersFrom ca db) (w : Wire) :
    IdentifyReports env request uuid w template (rowsOfSerial db n) ∧
        RevokeAddresses env request uuid w ca reason db n ↔
      Even (Nat.toDigits 16 n).length ∨ rowsOfSerial db n = [] := by
  obtain ⟨w', hidentify⟩ := identify_eq_verdict hca htemplate hserial hsession hanswers w
  have hreports := reports_identifyVerdict template (selectedRows db (serialFilter (formatHex n)))
  rw [revokeAddresses_iff hca hserial hreason hsession hanswers w]
  by_cases heven : Even (Nat.toDigits 16 n).length
  · -- the texts of the rows are the one of the services
    rw [selectedRows_of_even heven] at hidentify hreports
    exact iff_of_true ⟨⟨_, w', hidentify, hreports⟩, fun _ _ _ _ => heven⟩ (.inl heven)
  · -- no text of a row is, so that nothing is found
    rw [selectedRows_of_not_even heven] at hidentify hreports
    rw [or_iff_right heven]
    constructor
    · rintro ⟨⟨outcome', t, hrun, hrows⟩, -⟩
      rw [hidentify] at hrun
      cases hrun
      exact hrows.notFound_iff.mp (hreports.notFound_iff.mpr rfl)
    · intro hnone
      rw [hnone]
      refine ⟨⟨_, w', hidentify, hreports⟩, fun row hrow hissued hn => ?_⟩
      have hmem : row ∈ rowsOfSerial db n :=
        List.mem_filter.mpr ⟨hrow, decide_eq_true ⟨hn, hissued.listed⟩⟩
      rw [hnone] at hmem
      exact absurd hmem List.not_mem_nil

end Services

/-! ### A host with a database -/

/-- A host that answers the queries on one authority from its database. -/
def databaseHost (ca : AuthorityData) (db : List AdcsDatabaseRow) : Host where
  debug := false
  openShell _ := .ok ()
  powershell _ script := .ok (printedText (formatRecords 19 IdentifiedCertificate.fields
    ((db.filter fun row => script = identifyQuery ca (serialFilter row.serialText) ∧
      row.Listed).map properties)))
  closeShell _ := .ok ()

lemma databaseHost_answersFrom (ca : AuthorityData) {db : List AdcsDatabaseRow}
    (hdb : ∀ row ∈ db, ∀ entry ∈ row.properties.fields, IsTrimmedLine entry.2) :
    (databaseHost ca db).AnswersFrom ca db where
  openShell _ := rfl
  closeShell _ := rfl
  powershell w n := by
    have hrows : (db.filter fun row => identifyQuery ca (serialFilter (formatHex n)) =
        identifyQuery ca (serialFilter row.serialText) ∧ row.Listed) =
          selectedRows db (serialFilter (formatHex n)) := by
      refine List.filter_congr fun row _ => decide_eq_decide.mpr (and_congr_left' ?_)
      exact (identifyQuery_injective ca).eq_iff
    have hprinted : ∀ c ∈ (selectedRows db (serialFilter (formatHex n))).map properties,
        ∀ entry ∈ c.fields, IsTrimmedLine entry.2 := by
      intro c hc
      obtain ⟨row, hrow, rfl⟩ := List.mem_map.mp hc
      exact hdb row (List.mem_filter.mp hrow).1
    refine ⟨_, _, rfl, rfl, printedText_stdOut _, ?_⟩
    rw [hrows]
    refine rendersRecords_formatRecords 19 identifiedFormat_plain ?_ ?_ hprinted
    · intro c _ entry hentry
      exact (identifiedReading_fits c).keys.mem_iff.mp (List.mem_map_of_mem hentry)
    · intro c _ entry hentry
      fin_cases hentry
      · exact (by decide : "CertificateTemplate" ≠ "ConfigString")
      · exact (by decide : "SerialNumber" ≠ "ConfigString")

/-- The services around that host, on a certificate of one serial number. -/
def databaseEnvironment (ca : AuthorityData) (db : List AdcsDatabaseRow) (n : ℕ) :
    ServiceEnvironment where
  AuthorityInstance := Unit
  authorityInstance _ := .ok ()
  session _ := .ok (databaseHost ca db)
  eval := evalBoolean
  searchPageSize := 1000
  serialNumber _ := .ok n
  createCms certificateRequest _ _ := .ok certificateRequest
  issuePollingInterval := 100
  issuePollingTimeout := 3000

/-- A certificate of the template of the samples. -/
def webServerRow (n : ℕ) : AdcsDatabaseRow := ⟨n, 20, "WebServer", "ca.example.local\\Root CA"⟩

/-- A request of an RA profile for that template. -/
def profileRequest : CertificateRequest where
  raProfileAttributes := [⟨"raprofile_select_ca_method", [.str "search"]⟩,
    ⟨"raprofile_ca_name", [.authority listedCa]⟩,
    ⟨"raprofile_template_name", [.template sampleTemplate]⟩]
  certificate := ""
  reason := .str "superseded"

lemma webServerRow_trimmed {n : ℕ} (h : IsTrimmedLine (webServerRow n).serialText) :
    ∀ row ∈ [webServerRow n], ∀ entry ∈ row.properties.fields, IsTrimmedLine entry.2 := by
  intro row hrow entry hentry
  obtain rfl := List.mem_singleton.mp hrow
  fin_cases hentry
  · exact (by decide : IsTrimmedLine "WebServer")
  · exact h
  · exact (by decide : IsTrimmedLine "ca.example.local\\Root CA")

/-- Serial number `ff`, an even number of digits. -/
theorem serial_answered_sample :
    IdentifyReports (databaseEnvironment listedCa [webServerRow 255] 255) profileRequest "" ⟨[], 0⟩
        sampleTemplate (rowsOfSerial [webServerRow 255] 255) ∧
      RevokeAddresses (databaseEnvironment listedCa [webServerRow 255] 255) profileRequest ""
        ⟨[], 0⟩ listedCa .superseded [webServerRow 255] 255 :=
  (serial_answered_iff rfl rfl rfl rfl rfl
    (databaseHost_answersFrom listedCa (webServerRow_trimmed (by decide))) ⟨[], 0⟩).mpr
    (.inl (by decide))

/-- Serial number `abc`, which is kept as `0abc`. -/
theorem odd_serial_not_found :
    ¬ ∀ (env : ServiceEnvironment) (request : CertificateRequest) (uuid : String) (host : Host)
      (ca : AuthorityData) (template : TemplateData) (reason : CertificateRevocationReason) (n : ℕ)
      (db : List AdcsDatabaseRow) (w : Wire), 1 ≤ n →
      getCaFromAttributes request.raProfileAttributes = .ok ca →
      getTemplateFromAttributes request.raProfileAttributes = .ok template →
      env.serialNumber request.certificate = .ok (n : ℤ) →
      CertificateRevocationReason.fromString request.reason = .ok reason →
      createSession env.toEnvironment uuid = .ok host → host.AnswersFrom ca db →
      IdentifyReports env request uuid w template (rowsOfSerial db n) ∧
        RevokeAddresses env request uuid w ca reason db n := by
  intro h
  have hanswers := @databaseHost_answersFrom listedCa [webServerRow 2748]
    (webServerRow_trimmed (by decide))
  obtain ⟨⟨outcome, w', hrun, hreports⟩, -⟩ := h
    (databaseEnvironment listedCa [webServerRow 2748] 2748) profileRequest "" _ listedCa
    sampleTemplate .superseded 2748 [webServerRow 2748] ⟨[], 0⟩ (by omega) rfl rfl rfl rfl rfl
    hanswers
  obtain ⟨t, hidentify⟩ := @identify_eq_verdict
    (databaseEnvironment listedCa [webServerRow 2748] 2748) profileRequest "" _ listedCa
    sampleTemplate 2748 [webServerRow 2748] rfl rfl rfl rfl hanswers ⟨[], 0⟩
  rw [selectedRows_of_not_even (by decide), hrun] at hidentify
  obtain ⟨rfl, rfl⟩ := Prod.mk.inj (Option.some.inj hidentify)
  exact absurd (hreports.notFound_iff.mp ⟨_, rfl⟩) (by decide)

end AdcsConnector
