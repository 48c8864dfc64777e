/-
What a discovery finds, as the certificate services see it.

Both ask the same database: a discovery for all rows, page by page, `identify` and
`revoke` for the rows of one serial number.

* `templateValue`: what a query compares the template of a row with;
* `AdcsDatabase.dumped`: the rows that the pages of a query show;
* `Recognised`: `identify` and `revoke` find the row of a certificate when its serial
  number has evenly many digits, and else they do not;
* `collected_recognised`: every certificate of a collection is from a row that is.
-/
import AdcsConnector.Discovery
import AdcsConnector.SerialNumbers

namespace AdcsConnector

open Program AdcsDatabaseRow

/-! ### One database -/

/-- What the filter of a query on a template compares with: the name for schema version
1, else the OID. -/
def templateValue (template : TemplateData) : String :=
  if template.schemaVersion = "1" then template.name else template.oid

/-- A row passes the filters of a query, its date apart. -/
def AdcsDatabaseRow.Queried (template : Option TemplateData) (row : AdcsDatabaseRow) : Prop :=
  row.Listed ∧ ∀ t ∈ template, row.certificateTemplate = templateValue t

instance (template : Option TemplateData) : DecidablePred (Queried template) := fun _ =>
  inferInstanceAs (Decidable (_ ∧ _))

/-- The database of a certification authority, with the certificates that its rows
keep and those rows that the date of a request admits. -/
structure AdcsDatabase where
  rows : List AdcsDatabaseRow
  rawCertificate : AdcsDatabaseRow → String
  admitted : AdcsDatabaseRow → Bool

namespace AdcsDatabase

/-- The row as the pages of a discovery show it. -/
def result (db : AdcsDatabase) (row : AdcsDatabaseRow) : ParseResult :=
  ⟨row.certificateTemplate, db.rawCertificate row⟩

/-- The rows that the pages of a query show. -/
def dumped (db : AdcsDatabase) (template : Option TemplateData) : List ParseResult :=
  (db.rows.filter fun row => row.Queried template ∧ db.admitted row).map db.result

/-- No two rows that are listed have the same serial number. -/
def SerialsDiffer (db : AdcsDatabase) : Prop :=
  ((db.rows.filter fun row => row.Listed).map (·.serialNumber)).Nodup

/-- A row that is listed is the only one of its serial number. -/
lemma SerialsDiffer.rowsOfSerial_eq {db : AdcsDatabase} (h : db.SerialsDiffer)
    {row : AdcsDatabaseRow} (hrow : row ∈ db.rows) (hlisted : row.Listed) :
    rowsOfSerial db.rows row.serialNumber = [row] := by
  have hmem : row ∈ db.rows.filter fun row => row.Listed :=
    List.mem_filter.mpr ⟨hrow, decide_eq_true hlisted⟩
  have hfilter := Rows.filter_key_eq h hmem
  rw [List.filter_filter] at hfilter
  rw [rowsOfSerial, ← hfilter]
  exact List.filter_congr fun row' _ => by simp

end AdcsDatabase

/-- A row of a query on a template is of that template. -/
lemma AdcsDatabaseRow.Queried.ofTemplate {row : AdcsDatabaseRow} {t : TemplateData}
    (h : row.Queried (some t)) : row.OfTemplate t := by
  have hvalue := h.2 t rfl
  rw [templateValue] at hvalue
  split_ifs at hvalue
  · exact .inr hvalue
  · exact .inl hvalue

/-! ### The services on a certificate that was found -/

/-- What the services make of the certificate of a row: `identify` accepts it, and the
filter of `revoke` selects its row, when the serial number has evenly many hexadecimal
digits; else `identify` does not find it. -/
structure Recognised (env : ServiceEnvironment) (request : CertificateRequest) (uuid : String)
    (w : Wire) (ca : AuthorityData) (row : AdcsDatabaseRow) : Prop where
  identified : (∃ w', identify env request uuid w = some (.ok [], w')) ↔
    Even (Nat.toDigits 16 row.serialNumber).length
  notFound : ¬ Even (Nat.toDigits 16 row.serialNumber).length →
    ∃ message w', identify env request uuid w = some (.error (.notFound message), w')
  revoked : ∀ reason, CertificateRevocationReason.fromString request.reason = .ok reason →
    ((∃ outcome w' filter, revoke env request uuid w = some (outcome, w') ∧
      w'.sent = w.sent ++ [revokeCommand ca filter reason] ∧ row.Selected filter) ↔
    Even (Nat.toDigits 16 row.serialNumber).length)

section Services

variable {env : ServiceEnvironment} {request : CertificateRequest} {uuid : String} {host : Host}
  {ca : AuthorityData} {template : TemplateData} {db : AdcsDatabase} {row : AdcsDatabaseRow}

lemma recognised (hca : getCaFromAttributes request.raProfileAttributes = .ok ca)
    (htemplate : getTemplateFromAttributes request.raProfileAttributes = .ok template)
    (hserial : env.serialNumber request.certificate = .ok (row.serialNumber : ℤ))
    (hsession : createSession env.toEnvironment uuid = .ok host)
    (hanswers : host.AnswersFrom ca db.rows) (hdiffer : db.SerialsDiffer) (hrow : row ∈ db.rows)
    (hlisted : row.Listed) (hof : row.OfTemplate template) (w : Wire) :
    Recognised env request uuid w ca row := by
  obtain ⟨w', hidentify⟩ := identify_eq_verdict hca htemplate hserial hsession hanswers w
  have hrevoked : ∀ reason, CertificateRevocationReason.fromString request.reason = .ok reason →
      ((∃ outcome w' filter, revoke env request uuid w = some (outcome, w') ∧
        w'.sent = w.sent ++ [revokeCommand ca filter reason] ∧ row.Selected filter) ↔
      Even (Nat.toDigits 16 row.serialNumber).length) := by
    intro reason hreason
    obtain ⟨outcome, v', hrevoke, hsent⟩ :=
      exists_revoke hca hserial hreason hsession hanswers w
    constructor
    · rintro ⟨outcome', t, filter, hrun, hfilter, hselected⟩
      rw [hrevoke] at hrun
      cases hrun
      rw [hsent, List.append_cancel_left_eq, List.singleton_inj] at hfilter
      obtain rfl := revokeCommand_injective ca reason hfilter
      exact (selected_serialFilter_iff.mp hselected).2
    · intro heven
      exact ⟨outcome, v', _, hrevoke, hsent, selected_serialFilter_iff.mpr ⟨rfl, heven⟩⟩
  by_cases heven : Even (Nat.toDigits 16 row.serialNumber).length
  · rw [selectedRows_of_even heven, hdiffer.rowsOfSerial_eq hrow hlisted] at hidentify
    have hok : identifyVerdict template ([row].map properties) = .ok [] :=
      identifyVerdict_eq_ok_iff.mpr ⟨rfl, row.properties, rfl, hof⟩
    rw [hok] at hidentify
    exact ⟨iff_of_true ⟨w', hidentify⟩ heven, fun hodd => absurd heven hodd, hrevoked⟩
  · rw [selectedRows_of_not_even heven] at hidentify
    refine ⟨iff_of_false (fun ⟨t, ht⟩ => ?_) heven, fun _ => ⟨_, w', hidentify⟩, hrevoked⟩
    rw [hidentify] at ht
    cases ht

end Services

/-- **What discovery finds, `identify` recognises.** A discovery and the certificate
services ask the same databases, one for each authority, with the serial numbers that
the certificates carry, no two alike among the rows listed. Then every certificate that
the discovery collects is that of a row of one of its queries, and for every RA profile
with the authority and the template of the query (with any template that the row is of,
when the query has none) the services recognise it exactly when its serial number has
evenly many hexadecimal digits. -/
theorem collected_recognised {env : ServiceEnvironment} {attributes : List Attribute}
    (sel : Selection env.toEnvironment attributes) {cas : List AuthorityData}
    (havailable : sel.Available cas) {db : AuthorityData → AdcsDatabase}
    (hserves : Serves sel.host (fun ca => (db ca).dumped) cas sel.templates sel.issuedAfter
      env.searchPageSize)
    (hanswers : ∀ ca ∈ cas, sel.host.AnswersFrom ca (db ca).rows)
    (hserial : ∀ ca ∈ cas, ∀ row ∈ (db ca).rows,
      env.serialNumber ((db ca).rawCertificate row) = .ok (row.serialNumber : ℤ))
    (hdiffer : ∀ ca ∈ cas, (db ca).SerialsDiffer) (hs : 1 ≤ env.searchPageSize) {fuel : ℕ}
    (hfuel : (allRows (fun ca => (db ca).dumped) cas sel.templates).length < fuel) (w : Wire) :
    ∃ total w', Returns (collectCertificates env.toEnvironment fuel attributes) w (cas, total) w' ∧
      ∀ cert ∈ total, ∃ ca ∈ cas, ∃ template ∈ queries sel.templates, ∃ row ∈ (db ca).rows,
        cert = (db ca).result row ∧ row.Queried template ∧
        ∀ (request : CertificateRequest) (t : TemplateData) (v : Wire),
          request.certificate = cert.certificate →
          getCaFromAttributes request.raProfileAttributes = .ok ca →
          getTemplateFromAttributes request.raProfileAttributes = .ok t →
          (template = some t ∨ template = none ∧ row.OfTemplate t) →
          Recognised env request sel.uuid v ca row := by
  refine ⟨_, _, havailable.returns_inSession
    (fun w => hserves.returns_collectCas hs hfuel w) w, fun cert hcert => ?_⟩
  obtain ⟨ca, hca, hcert⟩ := List.mem_flatMap.mp hcert
  obtain ⟨template, htemplate, hcert⟩ := List.mem_flatMap.mp hcert
  obtain ⟨row, hmem, rfl⟩ := List.mem_map.mp hcert
  obtain ⟨hrow, hqueried⟩ := List.mem_filter.mp hmem
  have hqueried := (of_decide_eq_true hqueried).1
  refine ⟨ca, hca, template, htemplate, row, hrow, rfl, hqueried,
    fun request t v hcertificate hprofile ht hmatch => ?_⟩
  have hsession : createSession env.toEnvironment sel.uuid = .ok sel.host := by
    rw [createSession, sel.authority_eq]
    exact sel.host_eq
  have hof : row.OfTemplate t := by
    rcases hmatch with rfl | ⟨-, hof⟩
    · exact hqueried.ofTemplate
    · exact hof
  have hnumber : env.serialNumber request.certificate = .ok (row.serialNumber : ℤ) := by
    rw [hcertificate]
    exact hserial ca hca row hrow
  exact recognised hprofile ht hnumber hsession (hanswers ca hca) (hdiffer ca hca) hrow hqueried.1
    hof v

/-! ### A sample database -/

/-- The script of a page is not one of `identify`. -/
lemma pageScript_ne_identifyQuery (ca : AuthorityData) (pageSize : ℤ) (page : ℕ)
    (filter : String) : pageScript ca none none pageSize page ≠ identifyQuery ca filter := by
  have hcommand : "\" | Get-AdcsDatabaseRow -Property \"RawCertificate\" -Page " =
      "\" | Get-AdcsDatabaseRow" ++ " -Property \"RawCertificate\" -Page " := by decide +kernel
  intro heq
  unfold pageScript dumpCertificatesScript identifyQuery baseCommand at heq
  simp only [Option.filter_none, String.intercalate_cons_cons, String.intercalate_singleton,
    hcommand, String.append_assoc, String.append_right_inj] at heq
  -- the parameters differ in their names
  have hstart := congrArg (fun s => s.toList[2]?) heq
  simp only [String.toList_append] at hstart
  exact absurd hstart (by simp)

/-- One certificate, of serial number `ff`. -/
def webServerDatabase : AdcsDatabase := ⟨[webServerRow 255], fun _ => "TUlJQzd==", fun _ => true⟩

/-- A host that answers the pages of a discovery and the queries of `identify`. -/
def webServerHost : Host where
  debug := false
  openShell _ := .ok ()
  powershell w script :=
    if script = pageScript listedCa none none 2 0 then
      .ok (printed (webServerDatabase.dumped none))
    else (databaseHost listedCa webServerDatabase.rows).powershell w script
  closeShell _ := .ok ()

lemma webServerHost_powershell (w : Wire) (script : String) : webServerHost.powershell w script =
    if script = pageScript listedCa none none 2 0 then
      .ok (printed (webServerDatabase.dumped none))
    else (databaseHost listedCa webServerDatabase.rows).powershell w script := rfl

lemma webServerHost_page (w : Wire) (page : ℕ) :
    webServerHost.powershell w (pageScript listedCa none none 2 page) =
      .ok (printed (Slice.page (webServerDatabase.dumped none) 2 page)) := by
  rw [webServerHost_powershell]
  split_ifs with hscript
  · obtain rfl : page = 0 := by
      have hnumber := baseCommand_page (dumpCertificatesScript_baseCommand hscript)
      omega
    rfl
  · have hnone : webServerDatabase.rows.filter (fun row => pageScript listedCa none none 2 page =
        identifyQuery listedCa (serialFilter row.serialText) ∧ row.Listed) = [] :=
      List.filter_eq_nil_iff.mpr fun row _ => by simp [pageScript_ne_identifyQuery]
    have hpage : Slice.page (webServerDatabase.dumped none) 2 page = [] := by
      obtain ⟨page, rfl⟩ : ∃ n, page = n + 1 :=
        Nat.exists_eq_succ_of_ne_zero fun hzero => hscript (by rw [hzero])
      refine (Slice.page_eq_nil_iff (by decide)).mpr ?_
      have hlength : (webServerDatabase.dumped none).length = 1 := by decide
      omega
    rw [hpage, databaseHost]
    dsimp only
    rw [hnone]
    rfl

lemma webServerHost_serves : Serves webServerHost (fun _ => webServerDatabase.dumped) [listedCa] []
    none 2 := by
  intro ca hca template htemplate page w
  obtain rfl := List.mem_singleton.mp hca
  obtain rfl := List.mem_singleton.mp htemplate
  refine ⟨_, _, webServerHost_page w page, rfl, rfl, renders_formatList fun row hrow => ?_⟩
  rw [Slice.page_eq] at hrow
  obtain rfl := List.mem_singleton.mp (List.mem_of_mem_drop (List.mem_of_mem_take hrow))
  exact ⟨by decide, by decide, List.all_eq_true.mp (by decide)⟩

lemma webServerHost_answersFrom : webServerHost.AnswersFrom listedCa webServerDatabase.rows where
  openShell _ := rfl
  closeShell _ := rfl
  powershell w n := by
    rw [webServerHost_powershell, if_neg (pageScript_ne_identifyQuery _ _ _ _).symm]
    exact (databaseHost_answersFrom listedCa (webServerRow_trimmed (by decide))).powershell w n

/-- The services around that host. -/
def webServerEnvironment : ServiceEnvironment :=
  { databaseEnvironment listedCa webServerDatabase.rows 255 with
    session := fun _ => .ok webServerHost
    searchPageSize := 2 }

/-- A request for all certificates of the authority. -/
def webServerDiscovery : List Attribute :=
  [⟨"discovery_authority_instance", [.authorityInstance "Lab" "7"]⟩,
    ⟨"discovery_select_ca_method", [.str "search"]⟩,
    ⟨"discovery_ca_name", [.authority listedCa]⟩]

def webServerSelection : Selection webServerEnvironment.toEnvironment webServerDiscovery where
  uuid := "7"
  authority := ()
  cas := [listedCa]
  templates := []
  host := webServerHost
  uuid_eq := rfl
  authority_eq := rfl
  cas_eq := rfl
  templates_eq := rfl
  isDate := trivial
  host_eq := rfl

lemma webServerSelection_available : webServerSelection.Available [listedCa] where
  openShell _ := rfl
  closeShell _ := rfl
  selected _ := rfl
  listed h := by cases h

/-- The certificate collected is identified: its serial number has two digits. -/
theorem collected_recognised_sample : ∃ total w',
    Returns (collectCertificates webServerEnvironment.toEnvironment 2 webServerDiscovery) ⟨[], 0⟩
      ([listedCa], total) w' ∧
    ∀ cert ∈ total, ∃ v', identify webServerEnvironment
      { profileRequest with certificate := cert.certificate } "7" ⟨[], 0⟩ = some (.ok [], v') := by
  obtain ⟨total, w', hr, hall⟩ := @collected_recognised _ _ webServerSelection _
    webServerSelection_available (fun _ => webServerDatabase) webServerHost_serves
    (fun ca hca => List.mem_singleton.mp hca ▸ webServerHost_answersFrom)
    (fun _ _ row hrow => by obtain rfl := List.mem_singleton.mp hrow; rfl)
    (fun _ _ => List.nodup_singleton _) (by decide) 2 (by decide) ⟨[], 0⟩
  refine ⟨total, w', hr, fun cert hcert => ?_⟩
  obtain ⟨ca, hca, template, htemplate, row, hrow, -, -, hrecognised⟩ := hall cert hcert
  obtain rfl := List.mem_singleton.mp hca
  obtain rfl := List.mem_singleton.mp htemplate
  obtain rfl := List.mem_singleton.mp hrow
  exact (hrecognised { profileRequest with certificate := cert.certificate } sampleTemplate ⟨[], 0⟩
    rfl rfl rfl (.inr ⟨rfl, .inr rfl⟩)).identified.mpr (by decide)

end AdcsConnector
