/-
The collection of `discover_certificates`: which certification authorities a
request selects, and the loops that dump their certificates page by page.

* `selectCas`: the authorities selected, or named by a ConfigString;
* `collectQuery`, `collectCa`, `collectCas`: the paging loop of one query, and
  the loops over the templates and the authorities;
* `collectCertificates`: the collection as a whole, between `connect` and
  `disconnect`;
* `exists_collected`: what is collected is what the persistence of `Persistence`
  expects;
* `Serves`: a host that answers from a database that does not change;
* `collectCas_complete`: against such a host the loops end, with all rows of
  all queries in order.
-/
import AdcsConnector.Scripts
import AdcsConnector.DumpParser
import AdcsConnector.Persistence
import AdcsConnector.Library.Slice

namespace AdcsConnector

open Program

/-! ### Request attributes -/

/-- The `data` of an item of an attribute's content: the strings and the
dictionaries that the connector's own callbacks offer. -/
inductive AttributeData where
  | missing
  | str (s : String)
  | authorityInstance (name uuid : String)
  | authority (ca : AuthorityData)
  | template (template : TemplateData)
  deriving DecidableEq

/-- An attribute of a request; a missing content reads as an empty one. -/
structure Attribute where
  name : String
  content : List AttributeData

/-- `get_attribute_value`. -/
def getAttributeValue (attributeName : String) : List Attribute → AttributeData
  | [] => .str ""
  | attr :: attributes =>
      if attr.name = attributeName then
        match attr.content with
        | data :: _ => data
        | [] => getAttributeValue attributeName attributes
      else getAttributeValue attributeName attributes

/-- `get_attribute_value_list`. -/
def getAttributeValueList (attributeName : String) : List Attribute → List AttributeData
  | [] => []
  | attr :: attributes =>
      if attr.name = attributeName ∧ attr.content ≠ [] then attr.content
      else getAttributeValueList attributeName attributes

/-- A subscript on a datum that is no dictionary, or on one without the key. -/
def subscriptError (key : String) : AttributeData → PyError
  | .missing => .typeError "'NoneType' object is not subscriptable"
  | .str _ => .typeError "string indices must be integers, not 'str'"
  | _ => .keyError key

/-- `AuthorityInstanceAttribute.from_dict`, read for its uuid. -/
def AttributeData.authorityInstanceUuid : AttributeData → Except PyError String
  | .authorityInstance _ uuid => .ok uuid
  | data => .error (subscriptError "uuid" data)

/-- `AuthorityData.from_dict`. -/
def AttributeData.authorityData : AttributeData → Except PyError AuthorityData
  | .authority ca => .ok ca
  | .template _ => .error (.keyError "computer_name")
  | .authorityInstance .. => .error (.keyError "display_name")
  | data => .error (subscriptError "name" data)

/-- `TemplateData.from_dict`. -/
def AttributeData.templateData : AttributeData → Except PyError TemplateData
  | .template t => .ok t
  | .authority _ => .error (.keyError "schema_version")
  | .authorityInstance .. => .error (.keyError "display_name")
  | data => .error (subscriptError "name" data)

/-- The datum of a date: a text, or none. -/
def AttributeData.IsDate : AttributeData → Prop
  | .str _ | .missing => True
  | _ => False

/-- The date a query is limited to. -/
def AttributeData.date : AttributeData → Option String
  | .str s => some s
  | _ => none

/-- `"…" + value`, which only a string can end. -/
def concatError (message : String) : AttributeData → PyError
  | .str s => .exception (message ++ s)
  | .missing => .typeError "can only concatenate str (not \"NoneType\") to str"
  | _ => .typeError "can only concatenate str (not \"dict\") to str"

/-! ### The certification authorities -/

/-- The ConfigString `computer\name` taken apart. -/
def caOfConfigString (configString : String) : Except PyError AuthorityData :=
  match configString.toList.splitOn '\\' with
  | computerName :: caName :: _ =>
      if caName = [] ∨ computerName = [] then
        .error (.exception ("Wrong format of ConfigString: " ++ configString))
      else
        .ok ⟨String.ofList caName, String.ofList caName, String.ofList computerName, configString,
          "", .none, .none, .none, .none⟩
  | _ => .error .indexError

/-- The branches of `discover_certificates` on `discovery_select_ca_method`. -/
def selectCas (attributes : List Attribute) : Except PyError (List AuthorityData) :=
  let selectCaMethod := getAttributeValue "discovery_select_ca_method" attributes
  if selectCaMethod = .str "search" then
    (getAttributeValueList "discovery_ca_name" attributes).mapM AttributeData.authorityData
  else if selectCaMethod = .str "configstring" then
    match getAttributeValue "discovery_config_string" attributes with
    | .missing | .str "" =>
        .error (.exception "ConfigString is required with selected CA Method: configstring")
    | .str configString => (caOfConfigString configString).map fun ca => [ca]
    | _ => .error (.attributeError "'dict' object has no attribute 'split'")
  else .error (concatError "Unknown CA Select Method: " selectCaMethod)

/-! ### The loops -/

section Loops

variable (host : Host) (templates : List TemplateData) (issuedAfter : Option String)
  (pageSize : ℤ) (fuel : ℕ)

/-- One page requested and parsed. -/
def fetchPage (ca : AuthorityData) (template : Option TemplateData) (page : ℕ) :
    Session (List ParseResult) := do
  let result ← runPs host (dumpCertificatesScript ca template issuedAfter page pageSize)
  lift (parseCertificates result)

/-- `while len(certificates) == ADCS_SEARCH_PAGE_SIZE`. -/
def whileFull (ca : AuthorityData) (template : Option TemplateData) :
    ℕ → ℕ → List ParseResult → List ParseResult → Session (List ParseResult)
  | 0, _, _, _ => outOfFuel
  | fuel + 1, page, certificates, totalCertificates =>
      if (certificates.length : ℤ) = pageSize then do
        let certificates ← fetchPage host issuedAfter pageSize ca template (page + 1)
        whileFull ca template fuel (page + 1) certificates (totalCertificates ++ certificates)
      else pure totalCertificates

/-- All pages of one query. -/
def collectQuery (ca : AuthorityData) (totalCertificates : List ParseResult)
    (template : Option TemplateData) : Session (List ParseResult) := do
  let certificates ← fetchPage host issuedAfter pageSize ca template 1
  whileFull host issuedAfter pageSize ca template fuel 1 certificates
    (totalCertificates ++ certificates)

/-- The queries made for one authority: one for each template, or a single one
without a template filter. -/
def queries : List (Option TemplateData) :=
  if templates = [] then [none] else templates.map some

/-- The body of `for ca in cas`. -/
def collectCa (totalCertificates : List ParseResult) (ca : AuthorityData) :
    Session (List ParseResult) :=
  (queries templates).foldlM (collectQuery host issuedAfter pageSize fuel ca) totalCertificates

/-- `for ca in cas`. -/
def collectCas (cas : List AuthorityData) : Session (List ParseResult) :=
  cas.foldlM (collectCa host templates issuedAfter pageSize fuel) []

end Loops

/-! ### The collection as a whole -/

/-- What a discovery finds around it: the authority instances, the hosts behind
them, Python's `eval`, and `ADCS_SEARCH_PAGE_SIZE`. -/
structure Environment where
  AuthorityInstance : Type
  authorityInstance : String → Except PyError AuthorityInstance
  session : AuthorityInstance → Except PyError Host
  eval : Evaluator
  searchPageSize : ℤ

/-- All authorities of the host are listed when none is selected. -/
def listCas (eval : Evaluator) (host : Host) (cas : List AuthorityData) :
    Session (List AuthorityData) :=
  if cas = [] then do
    let result ← runPs host getCasScript
    lift (parseAuthorityData eval result)
  else pure cas

/-- `discover_certificates` around its loops: what is read from the request,
the session, and the listing of all authorities when none is selected. -/
def inSession {α : Type} (env : Environment) (attributes : List Attribute)
    (loops : Host → List TemplateData → Option String → List AuthorityData → Session α) :
    Session (List AuthorityData × α) := do
  let uuid ← lift
    (getAttributeValue "discovery_authority_instance" attributes).authorityInstanceUuid
  let authority ← lift (env.authorityInstance uuid)
  let cas ← lift (selectCas attributes)
  let templates ← lift
    ((getAttributeValueList "discovery_template_name" attributes).mapM AttributeData.templateData)
  let issuedAfter := (getAttributeValue "discovery_issued_after" attributes).date
  let host ← lift (env.session authority)
  connect host
  let cas ← listCas env.eval host cas
  let collected ← loops host templates issuedAfter cas
  disconnect host
  return (cas, collected)

/-- `discover_certificates` up to its persistence: the authorities and
`total_certificates`. -/
def collectCertificates (env : Environment) (fuel : ℕ) (attributes : List Attribute) :
    Session (List AuthorityData × List ParseResult) :=
  inSession env attributes fun host templates issuedAfter =>
    collectCas host templates issuedAfter env.searchPageSize fuel

/-- What a session returns is what its loops return for the same authorities. -/
lemma exists_returns_of_inSession {α : Type} {env : Environment} {attributes : List Attribute}
    {loops : Host → List TemplateData → Option String → List AuthorityData → Session α}
    {w w' : Wire} {cas : List AuthorityData} {a : α}
    (h : Returns (inSession env attributes loops) w (cas, a) w') :
    ∃ host templates issuedAfter w₁ w₂,
      Returns (loops host templates issuedAfter cas) w₁ a w₂ := by
  simp only [inSession, returns_bind, returns_pure] at h
  obtain ⟨_, _, -, _, _, -, _, _, -, templates, _, -, host, _, -, _, _, -, cas', w₁, -, a', w₂,
    hloops, _, _, -, heq, -⟩ := h
  obtain ⟨rfl, rfl⟩ := Prod.mk.inj heq
  exact ⟨host, templates, _, w₁, w₂, hloops⟩

/-- A collection hands its persistence an authority whenever it hands it a
certificate. -/
theorem exists_collected {env : Environment} {fuel : ℕ} {attributes : List Attribute}
    {w w' : Wire} {cas : List AuthorityData} {total : List ParseResult}
    (h : Returns (collectCertificates env fuel attributes) w (cas, total) w') :
    ∃ c : Collected, c.cas = cas ∧ c.totalCertificates = total := by
  obtain ⟨host, templates, issuedAfter, w₁, w₂, hloops⟩ := exists_returns_of_inSession h
  refine ⟨⟨cas, total, ?_⟩, rfl, rfl⟩
  rintro htotal rfl
  exact htotal (returns_pure.mp hloops).1.symm

/-! ### Completeness -/

/-- A host with a database that does not change: page `page + 1` of a query
answers with the rows of that page, rendered. -/
def Serves (host : Host) (rows : AuthorityData → Option TemplateData → List ParseResult)
    (cas : List AuthorityData) (templates : List TemplateData) (issuedAfter : Option String)
    (pageSize : ℤ) : Prop :=
  ∀ ca ∈ cas, ∀ template ∈ queries templates, ∀ page w, ∃ result text,
    host.powershell w (dumpCertificatesScript ca template issuedAfter (page + 1) pageSize) =
        .ok result ∧
      result.statusCode = 0 ∧ result.stdOut = text.toUTF8 ∧
      Renders (Slice.page (rows ca template) pageSize.toNat page) text

variable {host : Host} {rows : AuthorityData → Option TemplateData → List ParseResult}
  {cas : List AuthorityData} {templates : List TemplateData} {issuedAfter : Option String}
  {pageSize : ℤ} {fuel : ℕ} {ca : AuthorityData} {template : Option TemplateData}

/-- All rows of all queries, in the order of the authorities, the templates and
the rows. -/
def allRows (rows : AuthorityData → Option TemplateData → List ParseResult)
    (cas : List AuthorityData) (templates : List TemplateData) : List ParseResult :=
  cas.flatMap fun ca => (queries templates).flatMap (rows ca)

/-- A page is fetched when the host answers it and the answer can be parsed. -/
lemma returns_fetchPage {page : ℕ} {w : Wire} {result : Response} {certificates : List ParseResult}
    (hanswer : host.powershell w (dumpCertificatesScript ca template issuedAfter page pageSize) =
      .ok result) (hstatus : result.statusCode = 0)
    (hparse : parseCertificates result = .ok certificates) :
    Returns (fetchPage host issuedAfter pageSize ca template page) w certificates
      { w with
        sent := w.sent ++ [dumpCertificatesScript ca template issuedAfter page pageSize] } := by
  rw [fetchPage, returns_bind]
  obtain ⟨s, hdecode⟩ := exists_decode_of_parseCertificates hparse
  exact ⟨result, _, returns_runPs.mpr ⟨hanswer, .of_decode host hdecode hstatus, rfl⟩,
    returns_lift.mpr ⟨hparse, rfl⟩⟩

/-- A page requested is the page of the rows. -/
lemma Serves.exists_fetchPage (h : Serves host rows cas templates issuedAfter pageSize)
    (hca : ca ∈ cas) (htemplate : template ∈ queries templates) (page : ℕ) (w : Wire) :
    ∃ w', Returns (fetchPage host issuedAfter pageSize ca template (page + 1)) w
      (Slice.page (rows ca template) pageSize.toNat page) w' := by
  obtain ⟨result, text, hanswer, hstatus, hout, hrender⟩ := h ca hca template htemplate page w
  exact ⟨_, returns_fetchPage hanswer hstatus (parseCertificates_of_renders hrender hout)⟩

/-- The loop from page `page + 1` on: the rows of the pages so far are
collected, and each further turn needs a full page. -/
lemma Serves.exists_whileFull (h : Serves host rows cas templates issuedAfter pageSize)
    (hs : 1 ≤ pageSize) (hca : ca ∈ cas) (htemplate : template ∈ queries templates)
    (pre : List ParseResult) (page : ℕ) (w : Wire)
    (hpage : page * pageSize.toNat ≤ (rows ca template).length)
    (hfuel : (rows ca template).length < page * pageSize.toNat + fuel) :
    ∃ w', Returns (whileFull host issuedAfter pageSize ca template fuel (page + 1)
        (Slice.page (rows ca template) pageSize.toNat page)
        (pre ++ (rows ca template).take ((page + 1) * pageSize.toNat))) w
      (pre ++ rows ca template) w' := by
  obtain ⟨k, rfl⟩ : ∃ k : ℕ, pageSize = k := ⟨pageSize.toNat, by omega⟩
  have hk : 1 ≤ k := by omega
  rw [Int.toNat_natCast] at *
  induction fuel generalizing page w with
  | zero => omega
  | succ fuel ih =>
      rw [whileFull]
      by_cases hfull : (page + 1) * k ≤ (rows ca template).length
      · have hlength := (Slice.page_length_eq_iff hk).mpr hfull
        obtain ⟨w₁, hfetch⟩ := h.exists_fetchPage hca htemplate (page + 1) w
        rw [Int.toNat_natCast] at hfetch
        have hnext : (page + 1) * k + fuel = page * k + fuel + k := by
          rw [Nat.add_mul]
          omega
        obtain ⟨w₂, hrest⟩ := ih (page + 1) w₁ hfull (by omega)
        refine ⟨w₂, ?_⟩
        rw [if_pos (by exact_mod_cast hlength), returns_bind]
        refine ⟨_, w₁, hfetch, ?_⟩
        rwa [List.append_assoc, Slice.take_append_page]
      · have hlength : (Slice.page (rows ca template) k page).length ≠ k := fun heq =>
          hfull ((Slice.page_length_eq_iff hk).mp heq)
        refine ⟨w, ?_⟩
        rw [if_neg (by exact_mod_cast hlength), List.take_of_length_le (by omega)]
        exact returns_pure.mpr ⟨rfl, rfl⟩

/-- One query collects its rows. -/
lemma Serves.exists_collectQuery (h : Serves host rows cas templates issuedAfter pageSize)
    (hs : 1 ≤ pageSize) (hca : ca ∈ cas) (htemplate : template ∈ queries templates)
    (hfuel : (rows ca template).length < fuel) (total : List ParseResult) (w : Wire) :
    ∃ w', Returns (collectQuery host issuedAfter pageSize fuel ca total template) w
      (total ++ rows ca template) w' := by
  obtain ⟨w₁, hfetch⟩ := h.exists_fetchPage hca htemplate 0 w
  obtain ⟨w₂, hrest⟩ := h.exists_whileFull hs hca htemplate total 0 w₁ (by omega)
    (show _ < 0 * pageSize.toNat + fuel by omega)
  refine ⟨w₂, ?_⟩
  rw [collectQuery, returns_bind]
  refine ⟨_, w₁, hfetch, ?_⟩
  have hfirst := Slice.take_append_page (rows ca template) pageSize.toNat 0
  rw [Nat.zero_mul, List.take_zero, List.nil_append] at hfirst
  rw [← hfirst] at hrest
  exact hrest

/-- The rows of a query are among all rows. -/
lemma length_le_allRows (rows : AuthorityData → Option TemplateData → List ParseResult)
    (hca : ca ∈ cas) (htemplate : template ∈ queries templates) :
    (rows ca template).length ≤ (allRows rows cas templates).length := by
  have hquery : (rows ca template).Sublist ((queries templates).flatMap (rows ca)) :=
    List.sublist_flatten_of_mem (List.mem_map_of_mem htemplate)
  have hca : ((queries templates).flatMap (rows ca)).Sublist (allRows rows cas templates) :=
    List.sublist_flatten_of_mem
      (List.mem_map_of_mem (f := fun ca => (queries templates).flatMap (rows ca)) hca)
  exact (hquery.trans hca).length_le

/-! ### A sample host -/

/-- The answer that prints a list of rows. -/
def printed (rows : List ParseResult) : Response := ⟨(formatList rows).toUTF8, .empty, 0⟩

lemma printed_stdOut (rows : List ParseResult) :
    (printed rows).stdOut = (formatList rows).toUTF8 := rfl

/-- A host that prints a list of rows for every script. -/
def printingHost (rowsOf : String → List ParseResult) : Host where
  debug := false
  openShell _ := .ok ()
  powershell _ script := .ok (printed (rowsOf script))
  closeShell _ := .ok ()

def subCa : AuthorityData :=
  ⟨"Sub CA", "Sub CA", "ca.example.local", "ca.example.local\\Sub CA", "Enterprise Subordinate CA",
    .bool true, .bool false, .bool true, .str "Running"⟩

def sampleRows : List ParseResult := [⟨"WebServer", "TUlJQzd=="⟩, ⟨"User", "TUlJQzd=="⟩]

lemma sampleRows_printable {row : ParseResult} (h : row ∈ sampleRows) : row.Printable := by
  simp only [sampleRows, List.mem_cons, List.not_mem_nil, or_false] at h
  rcases h with rfl | rfl
  · exact ⟨by decide, by decide, List.all_eq_true.mp (by decide)⟩
  · exact ⟨by decide, by decide, List.all_eq_true.mp (by decide)⟩

/-- The sample rows in pages of one. -/
def samplePage (script : String) : List ParseResult :=
  if script = dumpCertificatesScript subCa none none 1 1 then Slice.page sampleRows 1 0
  else if script = dumpCertificatesScript subCa none none 2 1 then Slice.page sampleRows 1 1
  else []

lemma samplePage_script (page : ℕ) :
    samplePage (dumpCertificatesScript subCa none none (page + 1) 1) =
      Slice.page sampleRows 1 page := by
  rw [samplePage]
  split_ifs with h₁ h₂
  · have hpage := baseCommand_page (dumpCertificatesScript_baseCommand h₁)
    rw [show page = 0 by omega]
  · have hpage := baseCommand_page (dumpCertificatesScript_baseCommand h₂)
    rw [show page = 1 by omega]
  · have hpage : 2 ≤ page := by
      by_contra hlt
      obtain rfl | rfl : page = 0 ∨ page = 1 := by omega
      · exact h₁ rfl
      · exact h₂ rfl
    exact ((Slice.page_eq_nil_iff le_rfl).mpr (by simpa [sampleRows] using hpage)).symm

lemma sample_serves :
    Serves (printingHost samplePage) (fun _ _ => sampleRows) [subCa] [] none 1 := by
  intro ca hca template htemplate page w
  obtain rfl := List.mem_singleton.mp hca
  obtain rfl := List.mem_singleton.mp htemplate
  refine ⟨printed (Slice.page sampleRows 1 page), _, ?_, rfl, rfl, ?_⟩
  · exact congrArg (fun rows => Except.ok (printed rows)) (samplePage_script page)
  refine renders_formatList fun row hrow => sampleRows_printable ?_
  rw [Int.toNat_one, Slice.page_eq] at hrow
  exact List.mem_of_mem_drop (List.mem_of_mem_take hrow)

/-! ### The collection against a database -/

/-- **The collection is complete and exact.** Against a host whose database does
not change, with any page size of at least one and enough fuel, the loops end
and return all rows of all queries, each once, in the order of the authorities,
the templates and the rows. -/
theorem collectCas_complete (h : Serves host rows cas templates issuedAfter pageSize)
    (hs : 1 ≤ pageSize) (hfuel : (allRows rows cas templates).length < fuel) (w : Wire) :
    ∃ w', Returns (collectCas host templates issuedAfter pageSize fuel cas) w
      (allRows rows cas templates) w' := by
  refine exists_returns_foldlM (g := fun ca => (queries templates).flatMap (rows ca))
    (fun ca hca total w => ?_) [] w
  refine exists_returns_foldlM (fun template htemplate total w => ?_) total w
  have hle := length_le_allRows rows hca htemplate
  exact h.exists_collectQuery hs hca htemplate (by omega) total w

/-- Two rows in pages of one: both full pages and the empty third one are
requested. -/
theorem collectCas_complete_sample : ∃ w, Returns
    (collectCas (printingHost samplePage) [] none 1 3 [subCa]) ⟨[], 1⟩ sampleRows w := by
  obtain ⟨w, h⟩ := collectCas_complete sample_serves le_rfl
    (show (allRows _ _ _).length < 3 by decide) ⟨[], 1⟩
  exact ⟨w, h⟩

end AdcsConnector
