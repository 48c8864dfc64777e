/-
The values that are written into the scripts, and the string literals they are
meant for.

* `ScriptInput`: what the four builders that take texts of a request are given;
  `script`, the script built, `branch`, the branches its builder takes;
* `template`: the script of a branch as a text with holes, with
  `render_template`;
* `template_holes`: every hole stands in a string literal;
* `scripts_keep_structure_iff`: two inputs of one branch give scripts with the
  same token structure, and every value is denoted unchanged in its literal,
  exactly when no text of either request has a double quote of any kind, a
  dollar or a backtick.
-/
import AdcsConnector.Scripts
import AdcsConnector.Library.Quoting
import AdcsConnector.Library.Digits

namespace AdcsConnector

open Quoting

/-! ### The inputs of the builders -/

/-- A call of one of the builders; of a reason to revoke, its entry of the table. -/
inductive ScriptInput where
  | dump (ca : AuthorityData) (template : Option TemplateData) (issuedAfter : Option String)
      (page : ℕ) (pageSize : ℤ)
  | submit (request : String) (ca : AuthorityData) (template : TemplateData)
      (pollingInterval timeout : ℤ)
  | identify (serialNumber : ℤ) (ca : AuthorityData)
  | revoke (ca : AuthorityData) (serialNumber : ℤ) (reason : CertificateRevocationReason)

/-- What a hole of a script is filled with. -/
inductive Datum where
  | caName
  | configString
  | templateName
  | templateOid
  | issuedAfter
  | request
  | serialNumber
  | reason
  deriving DecidableEq

/-- The filter on the template: none, by name or by OID. -/
inductive TemplateFilter where
  | none
  | byName
  | byOid
  deriving DecidableEq

/-- The branches a builder takes, and the numbers it writes into code. -/
inductive ScriptBranch where
  | dump (dated : Bool) (filter : TemplateFilter) (page : ℕ) (pageSize : ℤ)
  | submit (pollingInterval timeout : ℤ)
  | identify
  | revoke
  deriving DecidableEq

/-- The branch of a template. -/
def TemplateFilter.of : Option TemplateData → TemplateFilter
  | .none => none
  | some template => if template.schemaVersion = "1" then byName else byOid

namespace ScriptInput

/-- The script built. -/
def script : ScriptInput → String
  | dump ca template issuedAfter page pageSize =>
      dumpCertificatesScript ca template issuedAfter page pageSize
  | submit request ca template pollingInterval timeout =>
      submitCertificateRequestScript request ca template pollingInterval timeout
  | identify serialNumber ca => identifyCertificateScript (formatHex serialNumber) ca
  | revoke ca serialNumber reason => revokeScript ca (formatHex serialNumber) reason

/-- The branches the builder takes. -/
def branch : ScriptInput → ScriptBranch
  | dump _ template issuedAfter page pageSize =>
      .dump (issuedAfter.filter (· ≠ "")).isSome (.of template) page pageSize
  | submit _ _ _ pollingInterval timeout => .submit pollingInterval timeout
  | identify _ _ => .identify
  | revoke _ _ _ => .revoke

/-- The values interpolated. -/
def value : ScriptInput → Datum → String
  | dump ca _ _ _ _, .caName => ca.name
  | dump _ template _ _ _, .templateName => (template.map (·.name)).getD ""
  | dump _ template _ _ _, .templateOid => (template.map (·.oid)).getD ""
  | dump _ _ issuedAfter _ _, .issuedAfter => issuedAfter.getD ""
  | submit _ ca _ _ _, .configString => ca.configString
  | submit _ _ template _ _, .templateName => template.name
  | submit request _ _ _ _, .request => request
  | identify _ ca, .caName => ca.name
  | identify serialNumber _, .serialNumber => formatHex serialNumber
  | revoke ca _ _, .caName => ca.name
  | revoke _ serialNumber _, .serialNumber => formatHex serialNumber
  | revoke _ _ reason, .reason => reason.toStringPsValue
  | _, _ => ""

/-- The texts of the request that the script contains. -/
def requestTexts : ScriptInput → List String
  | dump ca template issuedAfter _ _ =>
      (issuedAfter.filter (· ≠ "")).toList ++ ca.name ::
        template.toList.map fun t => if t.schemaVersion = "1" then t.name else t.oid
  | submit request ca template _ _ => [ca.configString, template.name, request]
  | identify _ ca => [ca.name]
  | revoke ca _ _ => [ca.name]

end ScriptInput

/-! ### The scripts as templates -/

namespace ScriptBranch

/-- The filter on the template. -/
def filterTemplate : TemplateFilter → List (Piece Datum)
  | .none => []
  | .byName => [.str ", \"CertificateTemplate -eq ", .value .templateName, .str "\""]
  | .byOid => [.str ", \"CertificateTemplate -eq ", .value .templateOid, .str "\""]

/-- `base_cmd`. -/
def baseTemplate (filter : TemplateFilter) (page : ℕ) (pageSize : ℤ) : List (Piece Datum) :=
  [.str "Get-CertificationAuthority -Name \"", .value .caName,
    .str "\" | Get-AdcsDatabaseRow -Property \"RawCertificate\" -Page ", .str (toString page),
    .str " -PageSize ", .str (toString pageSize),
    .str " -Filter \"Request.Disposition -ge 12\", \"Request.Disposition -le 21\""] ++
  filterTemplate filter

/-- The script of a branch, with a hole for every value. -/
def template : ScriptBranch → List (Piece Datum)
  | dump false filter page pageSize =>
      .str importModule :: .str "\n" :: baseTemplate filter page pageSize
  | dump true filter page pageSize =>
      [.str importModule, .str "\n", .str "$issued_after = Get-Date -Date \"",
        .value .issuedAfter, .str "\"", .str "\n"] ++
      baseTemplate filter page pageSize ++ [.str ", \"NotBefore -ge $issued_after\""]
  | submit pollingInterval timeout =>
      [.str submitConfig, .value .configString, .str submitTemplate, .value .templateName,
        .str (submitPolling pollingInterval timeout), .value .request, .str submitSubmit,
        .str submitPoll]
  | identify =>
      [.str importModule, .str "\n", .str "Get-CertificationAuthority -Name \"", .value .caName,
        .str "\" | Get-AdcsDatabaseRow", .str " -Filter \"SerialNumber -eq ",
        .value .serialNumber,
        .str "\", \"Request.Disposition -ge 12\", \"Request.Disposition -le 21\"",
        .str " -Property \"SerialNumber\", \"CertificateTemplate\", \"ConfigString\""]
  | revoke =>
      [.str importModule, .str "\n", .str "Get-CertificationAuthority -Name \"", .value .caName,
        .str "\" | Get-IssuedRequest -Filter", .str " \"SerialNumber -eq ",
        .value .serialNumber, .str "\" | Revoke-Certificate -Reason \"", .value .reason,
        .str "\""]

end ScriptBranch

namespace ScriptInput

/-- The values as lists of characters. -/
def env (a : ScriptInput) : Datum → List Char := fun d => (a.value d).toList

lemma render_filterTemplate (ca : AuthorityData) (template : Option TemplateData)
    (issuedAfter : Option String) (page : ℕ) (pageSize : ℤ) :
    render (ScriptBranch.filterTemplate (.of template))
        (dump ca template issuedAfter page pageSize).env =
      (templateFilter template).toList := by
  cases template with
  | none => rfl
  | some template =>
      by_cases hversion : template.schemaVersion = "1"
      · rw [TemplateFilter.of, if_pos hversion, templateFilter, if_pos hversion,
          ScriptBranch.filterTemplate]
        simp only [render_str, render_value, render_nil, String.toList_append, List.append_nil,
          List.append_assoc]
        rfl
      · rw [TemplateFilter.of, if_neg hversion, templateFilter, if_neg hversion,
          ScriptBranch.filterTemplate]
        simp only [render_str, render_value, render_nil, String.toList_append, List.append_nil,
          List.append_assoc]
        rfl

lemma render_baseTemplate (ca : AuthorityData) (template : Option TemplateData)
    (issuedAfter : Option String) (page : ℕ) (pageSize : ℤ) :
    render (ScriptBranch.baseTemplate (.of template) page pageSize)
        (dump ca template issuedAfter page pageSize).env =
      (baseCommand ca page pageSize ++ templateFilter template).toList := by
  have hfilter := render_filterTemplate ca template issuedAfter page pageSize
  have hname : (dump ca template issuedAfter page pageSize).env .caName = ca.name.toList := rfl
  unfold ScriptBranch.baseTemplate baseCommand
  simp only [render_append, hfilter, render_str, render_value, render_nil, hname,
    String.toList_append, List.append_nil, List.append_assoc]

/-- **The script is its template, filled.** -/
theorem render_template (a : ScriptInput) : render a.branch.template a.env = a.script.toList := by
  cases a with
  | dump ca template issuedAfter page pageSize =>
      have hbase := render_baseTemplate ca template issuedAfter page pageSize
      rw [branch, script, dumpCertificatesScript]
      cases hdate : issuedAfter.filter (· ≠ "") with
      | none =>
          rw [Option.isSome_none, ScriptBranch.template]
          simp only [render_str, hbase, String.intercalate_cons_cons,
            String.intercalate_singleton, String.toList_append, List.append_assoc]
      | some date =>
          have hvalue : (dump ca template issuedAfter page pageSize).env .issuedAfter =
              date.toList := by
            rw [Option.filter_eq_some_iff] at hdate
            rw [env, value, hdate.1, Option.getD_some]
          rw [Option.isSome_some, ScriptBranch.template]
          simp only [List.cons_append, List.nil_append, render_str, render_value, render_append,
            render_nil, hvalue, hbase, String.intercalate_cons_cons,
            String.intercalate_singleton, String.toList_append, List.append_assoc,
            List.append_nil]
  | submit request ca template pollingInterval timeout =>
      rw [branch, script, submitCertificateRequestScript, ScriptBranch.template]
      simp only [render_str, render_value, render_nil, String.toList_append, List.append_assoc,
        List.append_nil]
      rfl
  | identify serialNumber ca =>
      rw [branch, script, identifyCertificateScript, ScriptBranch.template]
      simp only [render_str, render_value, render_nil, String.intercalate_cons_cons,
        String.intercalate_singleton, String.toList_append, List.append_assoc, List.append_nil]
      rfl
  | revoke ca serialNumber reason =>
      rw [branch, script, revokeScript, ScriptBranch.template]
      simp only [render_str, render_value, render_nil, String.intercalate_cons_cons,
        String.intercalate_singleton, String.toList_append, List.append_assoc, List.append_nil]
      rfl

end ScriptInput

/-! ### The holes -/

section Holes

open Place

lemma leads_append_code {p : Place} {s s' : String} (h : Leads p s .code)
    (h' : Leads .code s' .code) : Leads p (s ++ s') .code :=
  h.append h'

lemma leads_importModule : Leads .code importModule .code :=
  leads_append_code (leads_append_code (leads_append_code (leads_append_code
    (leads_ofList (by decide)) (leads_ofList (by decide))) (leads_ofList (by decide)))
    (leads_ofList (by decide))) (leads_ofList (by decide))

lemma leads_submitConfig : Leads .code submitConfig .literal := by
  have himports : Leads .code imports .code :=
    leads_append_code (leads_append_code (leads_append_code (leads_ofList (by decide))
      (leads_ofList (by decide))) (leads_ofList (by decide))) (leads_ofList (by decide))
  exact himports.append (leads_ofList (by decide))

/-- A double quote is no digit, no sign and no small letter. -/
lemma not_digit_of_isDoubleQuote {c : Char} (hc : isDoubleQuote c) :
    ¬ c.isDigit ∧ ¬ c.isLower ∧ c ≠ '-' := by
  simp only [isDoubleQuote, Bool.or_eq_true, decide_eq_true_eq] at hc
  rcases hc with ((rfl | rfl) | rfl) | rfl <;> decide

lemma leads_nat (n : ℕ) : Leads .code (toString n) .code :=
  leads_code fun _ hc hquote =>
    Digits.not_mem_toString_nat (not_digit_of_isDoubleQuote hquote).1 n hc

lemma leads_int (n : ℤ) : Leads .code (toString n) .code :=
  leads_code fun _ hc hquote =>
    have hnot := not_digit_of_isDoubleQuote hquote
    Digits.not_mem_toString_int hnot.1 hnot.2.2 n hc

lemma leads_submitPolling (pollingInterval timeout : ℤ) :
    Leads .literal (submitPolling pollingInterval timeout) .literal := by
  have hbefore : Leads .literal "\"\n$encoding = 0x1\n$pollMilliseconds = " .code :=
    leads_ofList (by decide)
  have hbetween : Leads .code "\n$timeoutMilliseconds = " .code := leads_ofList (by decide)
  have hafter : Leads .code "\n\n$csr = \"" .literal := leads_ofList (by decide)
  exact (((hbefore.append (leads_int _)).append hbetween).append (leads_int _)).append hafter

lemma leads_submitSubmit : Leads .literal submitSubmit .code :=
  leads_append_code (leads_append_code (leads_ofList (by decide)) (leads_ofList (by decide)))
    (leads_ofList (by decide))

lemma holes_filterTemplate (filter : TemplateFilter) {t : List (Piece Datum)}
    (ht : HolesInLiterals .quote t) :
    HolesInLiterals .quote (ScriptBranch.filterTemplate filter ++ t) := by
  have hopen : Leads .quote ", \"CertificateTemplate -eq " .literal := leads_ofList (by decide)
  have hclose : Leads .literal "\"" .quote := leads_ofList (by decide)
  cases filter with
  | none => exact ht
  | byName => exact .str hopen (.value _ (.str hclose ht))
  | byOid => exact .str hopen (.value _ (.str hclose ht))

lemma holes_baseTemplate (filter : TemplateFilter) (page : ℕ) (pageSize : ℤ)
    {t : List (Piece Datum)} (ht : HolesInLiterals .quote t) :
    HolesInLiterals .code (ScriptBranch.baseTemplate filter page pageSize ++ t) := by
  have hname : Leads .code "Get-CertificationAuthority -Name \"" .literal :=
    leads_ofList (by decide)
  have hpage : Leads .literal
      "\" | Get-AdcsDatabaseRow -Property \"RawCertificate\" -Page " .code :=
    leads_ofList (by decide)
  have hsize : Leads .code " -PageSize " .code := leads_ofList (by decide)
  have hfilter : Leads .code
      " -Filter \"Request.Disposition -ge 12\", \"Request.Disposition -le 21\"" .quote :=
    leads_ofList (by decide)
  rw [ScriptBranch.baseTemplate, List.append_assoc]
  exact .str hname (.value _ (.str hpage (.str (leads_nat page) (.str hsize
    (.str (leads_int pageSize) (.str hfilter (holes_filterTemplate filter ht)))))))

/-- **Every hole of a script stands in a string literal.** -/
theorem template_holes (b : ScriptBranch) : HolesInLiterals .code b.template := by
  have hnewline : Leads .code "\n" .code := leads_ofList (by decide)
  have hclose : Leads .literal "\"" .quote := leads_ofList (by decide)
  have hname : Leads .code "Get-CertificationAuthority -Name \"" .literal :=
    leads_ofList (by decide)
  cases b with
  | dump dated filter page pageSize =>
      cases dated with
      | false =>
          have hbase := holes_baseTemplate filter page pageSize (t := []) trivial
          rw [List.append_nil] at hbase
          exact .str leads_importModule (.str hnewline hbase)
      | true =>
          have hdate : Leads .code "$issued_after = Get-Date -Date \"" .literal :=
            leads_ofList (by decide)
          have hbreak : Leads .quote "\n" .code := leads_ofList (by decide)
          have hafter : Leads .quote ", \"NotBefore -ge $issued_after\"" .quote :=
            leads_ofList (by decide)
          rw [ScriptBranch.template, List.append_assoc]
          exact .str leads_importModule (.str hnewline (.str hdate (.value _ (.str hclose
            (.str hbreak (holes_baseTemplate filter page pageSize (.str hafter trivial)))))))
  | submit pollingInterval timeout =>
      have htemplate : Leads .literal submitTemplate .literal := leads_ofList (by decide)
      have hrest : HolesInLiterals .code [Piece.str (ι := Datum) submitPoll] := trivial
      exact .str leads_submitConfig (.value _ (.str htemplate (.value _
        (.str (leads_submitPolling _ _) (.value _ (.str leads_submitSubmit hrest))))))
  | identify =>
      have hrow : Leads .literal "\" | Get-AdcsDatabaseRow" .code := leads_ofList (by decide)
      have hserial : Leads .code " -Filter \"SerialNumber -eq " .literal :=
        leads_ofList (by decide)
      have hdisposition : Leads .literal
          "\", \"Request.Disposition -ge 12\", \"Request.Disposition -le 21\"" .quote :=
        leads_ofList (by decide)
      have hrest : HolesInLiterals .quote [Piece.str (ι := Datum)
        " -Property \"SerialNumber\", \"CertificateTemplate\", \"ConfigString\""] := trivial
      exact .str leads_importModule (.str hnewline (.str hname (.value _ (.str hrow (.str hserial
        (.value _ (.str hdisposition hrest)))))))
  | revoke =>
      have hrequest : Leads .literal "\" | Get-IssuedRequest -Filter" .code :=
        leads_ofList (by decide)
      have hserial : Leads .code " \"SerialNumber -eq " .literal := leads_ofList (by decide)
      have hreason : Leads .literal "\" | Revoke-Certificate -Reason \"" .literal :=
        leads_ofList (by decide)
      exact .str leads_importModule (.str hnewline (.str hname (.value _ (.str hrequest
        (.str hserial (.value _ (.str hreason (.value _ (.str hclose trivial)))))))))

end Holes

/-! ### The values -/

lemma plain_formatHex (n : ℤ) : Plain (formatHex n).toList := by
  have hdigits : Plain (Nat.toDigits 16 n.natAbs) := by
    intro c hc hspecial
    obtain ⟨d, hd, rfl⟩ := Digits.exists_digit_of_mem (by omega) hc
    rcases hspecial with hquote | h | h
    · have hnot := not_digit_of_isDoubleQuote hquote
      exact Digits.digitChar_ne ⟨hnot.1, hnot.2.1⟩ hd rfl
    · exact Digits.digitChar_ne (by decide) hd h
    · exact Digits.digitChar_ne (by decide) hd h
  have hsign : Plain (if n < 0 then "-" else "").toList := by
    split_ifs <;> decide
  rw [formatHex, String.toList_append, String.toList_ofList]
  exact List.forall_mem_append.mpr ⟨hsign, hdigits⟩

lemma plain_toStringPsValue (reason : CertificateRevocationReason) :
    Plain reason.toStringPsValue.toList := by
  cases reason <;> decide

namespace ScriptInput

lemma plainValues_filterTemplate (ca : AuthorityData) (template : Option TemplateData)
    (issuedAfter : Option String) (page : ℕ) (pageSize : ℤ) :
    PlainValues (ScriptBranch.filterTemplate (.of template))
        (dump ca template issuedAfter page pageSize).env ↔
      ∀ text ∈ template.toList.map fun t => if t.schemaVersion = "1" then t.name else t.oid,
        Plain text.toList := by
  cases template with
  | none => simp [TemplateFilter.of, ScriptBranch.filterTemplate]
  | some template =>
      by_cases hversion : template.schemaVersion = "1" <;>
        simp [TemplateFilter.of, ScriptBranch.filterTemplate, hversion, env, value]

/-- The values of an input are plain when the texts of its request are. -/
lemma plainValues_iff (a : ScriptInput) :
    PlainValues a.branch.template a.env ↔ ∀ text ∈ a.requestTexts, Plain text.toList := by
  cases a with
  | dump ca template issuedAfter page pageSize =>
      have hfilter := plainValues_filterTemplate ca template issuedAfter page pageSize
      rw [branch, requestTexts, List.forall_mem_append, List.forall_mem_cons, ← hfilter]
      cases hdate : issuedAfter.filter (· ≠ "") with
      | none => simp [ScriptBranch.template, ScriptBranch.baseTemplate, env, value]
      | some date =>
          rw [Option.filter_eq_some_iff] at hdate
          simp [ScriptBranch.template, ScriptBranch.baseTemplate, env, value, hdate.1]
  | submit request ca template pollingInterval timeout =>
      simp [branch, ScriptBranch.template, env, value, requestTexts]
  | identify serialNumber ca =>
      simp [branch, ScriptBranch.template, env, value, requestTexts, plain_formatHex]
  | revoke ca serialNumber reason =>
      simp [branch, ScriptBranch.template, env, value, requestTexts, plain_formatHex,
        plain_toStringPsValue]

/-! ### The structure of a script -/

/-- Every value of the script lies wholly inside the string literal it is meant
for, and is denoted there unchanged. -/
def Denoted (a : ScriptInput) : Prop := Kept a.branch.template a.env

/-- The scripts of two inputs have the same token structure, and denote all
their values. -/
def StructureKept (a b : ScriptInput) : Prop :=
  (tokens a.script.toList).map Token.shape = (tokens b.script.toList).map Token.shape ∧
    a.Denoted ∧ b.Denoted

end ScriptInput

/-- **Request data and the structure of the scripts.** Two inputs that take the
same branches give scripts of one structure that denote all their values
exactly when no text of either request contains a double quote of any kind, a
dollar or a backtick. -/
theorem scripts_keep_structure_iff (a b : ScriptInput) (hbranch : a.branch = b.branch) :
    a.StructureKept b ↔
      (∀ text ∈ a.requestTexts, Plain text.toList) ∧
        ∀ text ∈ b.requestTexts, Plain text.toList := by
  rw [ScriptInput.StructureKept, ScriptInput.Denoted, ScriptInput.Denoted,
    ← a.plainValues_iff, ← b.plainValues_iff, ← a.render_template, ← b.render_template,
    ← hbranch]
  exact kept_iff (template_holes a.branch)

/-- The certification authority of the samples. -/
def plainCa : AuthorityData where
  name := "Demo Sub CA"
  displayName := "Demo Sub CA"
  computerName := "ca.example.com"
  configString := "ca.example.com\\Demo Sub CA"
  caType := "Enterprise Subordinate CA"
  isEnterprise := .bool true
  isRoot := .bool false
  isAccessible := .bool true
  serviceStatus := .str "Running"

/-- The same authority under a name that ends its string literal. -/
def quotedCa : AuthorityData := { plainCa with name := "x\"; Remove-Item C:\\pki; \"" }

theorem scripts_keep_structure_sample :
    (ScriptInput.identify 255 plainCa).branch = (ScriptInput.identify 16 plainCa).branch ∧
    (ScriptInput.identify 255 plainCa).StructureKept (.identify 16 plainCa) :=
  ⟨rfl, (scripts_keep_structure_iff (.identify 255 plainCa) (.identify 16 plainCa) rfl).mpr
    ⟨List.forall_mem_singleton.mpr (by decide), List.forall_mem_singleton.mpr (by decide)⟩⟩

/-- The name of an authority that contains a double quote leaves its literal. -/
theorem quoted_name_escapes :
    ¬ ∀ a b : ScriptInput, a.branch = b.branch → a.StructureKept b := by
  intro h
  obtain ⟨-, hdenoted, -⟩ := h (.identify 255 quotedCa) (.identify 255 plainCa) rfl
  have hvalues := (kept_iff_plainValues (template_holes .identify)).mp hdenoted
  have hplain := (ScriptInput.plainValues_iff (.identify 255 quotedCa)).mp hvalues
  exact absurd (hplain _ List.mem_cons_self) (by decide)

end AdcsConnector
