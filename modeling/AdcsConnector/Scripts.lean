/-
`remoting/winrm/scripts.py`: the PowerShell scripts of the services.

* `getCasScript`: lists the certification authorities;
* `dumpCertificatesScript`: dumps one page of the certificates issued by a
  certification authority; different pages, and authorities of different
  names, are different scripts (`dumpCertificatesScript_baseCommand`), and none of them
  is the listing (`dumpCertificatesScript_ne_getCasScript`);
* `submitCertificateRequestScript`: submits a certificate request and polls for
  the certificate;
* `identifyCertificateScript`, `getRevokeScript`: look a certificate up by its
  serial number, and revoke it;
* `CertificateRevocationReason`: the reasons of a revocation, with the names
  PowerShell has for them; `getRevokeScript` raises on a reason that cannot be
  looked up;
* `formatHex`: a serial number as the services write it.
-/
import AdcsConnector.Models

namespace AdcsConnector

/-- `IMPORT_MODULE`. -/
def importModule : String :=
  "Import-Module PSPKI\n" ++
  "$OutputEncoding = [console]::InputEncoding = [console]::OutputEncoding = " ++
  "[System.Text.UTF8Encoding]::new()\n" ++
  "$Host.UI.RawUI.BufferSize = New-Object Management.Automation.Host.Size " ++
  "(2048, $Host.UI.RawUI.BufferSize.Height)"

/-- `get_cas_script`. -/
def getCasScript : String :=
  "\n".intercalate [
    importModule,
    "$TemplateList = @()",
    "(Get-CertificationAuthority) | Foreach-Object \x7b",
    "$template = $_",
    "$OutputObject = \"\" | Select Name, DisplayName, ComputerName, ConfigString, Type, " ++
      "IsEnterprise, IsRoot, IsAccessible, ServiceStatus",
    "$outputObject.Name = $template.Name",
    "$OutputObject.DisplayName = $template.DisplayName",
    "$OutputObject.ComputerName = $template.ComputerName",
    "$OutputObject.ConfigString = $template.ConfigString",
    "$OutputObject.Type = $template.Type",
    "$OutputObject.IsEnterprise = $template.IsEnterprise",
    "$OutputObject.IsRoot = $template.IsRoot",
    "$OutputObject.IsAccessible = $template.IsAccessible",
    "$OutputObject.ServiceStatus = $template.ServiceStatus",
    "$TemplateList += $OutputObject",
    "\x7d",
    "$TemplateList | Format-List"]

/-- `base_cmd` of `dump_certificates_script`, before the filter on the template. -/
def baseCommand (ca : AuthorityData) (page : ℕ) (pageSize : ℤ) : String :=
  "Get-CertificationAuthority -Name \"" ++ ca.name ++
    "\" | Get-AdcsDatabaseRow -Property \"RawCertificate\" -Page " ++ toString page ++
    (" -PageSize " ++ toString pageSize ++
      " -Filter \"Request.Disposition -ge 12\", \"Request.Disposition -le 21\"")

/-- The filter on the template: by name for schema version 1, else by OID. -/
def templateFilter : Option TemplateData → String
  | none => ""
  | some template =>
      if template.schemaVersion = "1" then
        ", \"CertificateTemplate -eq " ++ template.name ++ "\""
      else ", \"CertificateTemplate -eq " ++ template.oid ++ "\""

/-- `dump_certificates_script`; an empty `issued_after` is falsy, as `None` is. -/
def dumpCertificatesScript (ca : AuthorityData) (template : Option TemplateData)
    (issuedAfter : Option String) (page : ℕ) (pageSize : ℤ) : String :=
  let baseCmd := baseCommand ca page pageSize ++ templateFilter template
  match issuedAfter.filter (· ≠ "") with
  | none => "\n".intercalate [importModule, baseCmd]
  | some date =>
      "\n".intercalate [importModule, "$issued_after = Get-Date -Date \"" ++ date ++ "\"",
        baseCmd ++ ", \"NotBefore -ge $issued_after\""]

lemma baseCommand_name {ca ca' : AuthorityData} {page : ℕ} {pageSize : ℤ}
    (h : baseCommand ca page pageSize = baseCommand ca' page pageSize) : ca.name = ca'.name := by
  have h₁ := (String.append_left_inj _).mp h
  have h₂ := (String.append_left_inj _).mp ((String.append_left_inj _).mp h₁)
  exact (String.append_right_inj _).mp h₂

lemma baseCommand_page {ca : AuthorityData} {page page' : ℕ} {pageSize : ℤ}
    (h : baseCommand ca page pageSize = baseCommand ca page' pageSize) : page = page' := by
  have hdigits : page.repr = page'.repr :=
    (String.append_right_inj _).mp ((String.append_left_inj _).mp h)
  have hread : ∀ n : ℕ, Nat.ofDigitChars 10 n.repr.toList 0 = n := by
    intro n
    rw [Nat.toList_repr, Nat.ofDigitChars_ten_toDigits]
  rw [← hread page, hdigits, hread]

/-- Equal scripts have equal commands. -/
lemma dumpCertificatesScript_baseCommand {ca ca' : AuthorityData} {template : Option TemplateData}
    {issuedAfter : Option String} {page page' : ℕ} {pageSize : ℤ}
    (h : dumpCertificatesScript ca template issuedAfter page pageSize =
      dumpCertificatesScript ca' template issuedAfter page' pageSize) :
    baseCommand ca page pageSize = baseCommand ca' page' pageSize := by
  rw [dumpCertificatesScript, dumpCertificatesScript] at h
  cases hdate : issuedAfter.filter (· ≠ "") with
  | none =>
      rw [hdate] at h
      have hcmd := (String.append_right_inj (importModule ++ "\n")).mp h
      exact (String.append_left_inj _).mp hcmd
  | some date =>
      rw [hdate] at h
      have hcmd := (String.append_right_inj (importModule ++ "\n" ++
        ("$issued_after = Get-Date -Date \"" ++ date ++ "\"") ++ "\n")).mp h
      exact (String.append_left_inj _).mp ((String.append_left_inj _).mp hcmd)

/-- `IMPORTS`. -/
def imports : String :=
  "$OutputEncoding = [console]::InputEncoding = [console]::OutputEncoding = " ++
  "[System.Text.UTF8Encoding]::new()\n" ++
  "$Host.UI.RawUI.BufferSize = New-Object Management.Automation.Host.Size " ++
  "(2048, $Host.UI.RawUI.BufferSize.Height)"

/-- `submit_certificate_request_script`, up to `ca.config_string`. -/
def submitConfig : String := imports ++ "\n$config = \""

/-- From `ca.config_string` to `template.name`. -/
def submitTemplate : String := "\"\n$template = \"CertificateTemplate:"

/-- From `template.name` to `request`. -/
def submitPolling (pollingInterval timeout : ℤ) : String :=
  "\"\n$encoding = 0x1\n$pollMilliseconds = " ++ toString pollingInterval ++
    "\n$timeoutMilliseconds = " ++ toString timeout ++ "\n\n$csr = \""

/-- After `request`: the submission. -/
def submitSubmit : String :=
  "\"\n\n$req = New-Object -ComObject CertificateAuthority.Request\n\n" ++
  "$disposition = $req.Submit(0xff, $csr, $template, $config)\n" ++
  "$requestId   = $req.GetRequestId()\n\n"

/-- The polling loop and the output. -/
def submitPoll : String :=
  "if ($disposition -eq 0 -or $disposition -eq 3) \x7b\n" ++
  "    $certB64 = $req.GetCertificate($encoding)\n" ++
  "\x7d else \x7b\n" ++
  "    do \x7b\n" ++
  "        Start-Sleep -Milliseconds $pollMilliseconds\n" ++
  "        $elapsed += $pollMilliseconds\n" ++
  "        $disposition = $req.RetrievePending($requestId, $config)\n" ++
  "    \x7d until ($disposition -eq 3 -or $elapsed -ge $timeout)   # 3 = issued\n\n" ++
  "    if ($disposition -eq 3) \x7b\n" ++
  "        $certB64 = $req.GetCertificate($encoding)\n" ++
  "    \x7d else \x7b\n" ++
  "        throw \"Timeout waiting for certificate (request $requestId).\"\n" ++
  "    \x7d\n" ++
  "\x7d\n\n" ++
  "$certB64\n"

/-- `submit_certificate_request_script`. -/
def submitCertificateRequestScript (request : String) (ca : AuthorityData)
    (template : TemplateData) (pollingInterval timeout : ℤ) : String :=
  submitConfig ++ ca.configString ++ submitTemplate ++ template.name ++
    submitPolling pollingInterval timeout ++ request ++ submitSubmit ++ submitPoll

/-! ### Identifying and revoking -/

/-- `'{0:x}'.format(n)`. -/
def formatHex (n : ℤ) : String :=
  (if n < 0 then "-" else "") ++ String.ofList (Nat.toDigits 16 n.natAbs)

/-- `identify_certificate_script`. -/
def identifyCertificateScript (serialNumber : String) (ca : AuthorityData) : String :=
  "\n".intercalate [
    importModule,
    "Get-CertificationAuthority -Name \"" ++ ca.name ++ "\" | Get-AdcsDatabaseRow" ++
      " -Filter \"SerialNumber -eq " ++ serialNumber ++
      "\", \"Request.Disposition -ge 12\", \"Request.Disposition -le 21\"" ++
      " -Property \"SerialNumber\", \"CertificateTemplate\", \"ConfigString\""]

/-- `utils/revocation_reason.py`. -/
inductive CertificateRevocationReason where
  | unspecified
  | keyCompromise
  | caCompromise
  | affiliationChanged
  | superseded
  | cessationOfOperation
  | certificateHold
  | privilegesWithdrawn
  | aaCompromise
  deriving DecidableEq

namespace CertificateRevocationReason

/-- The entry of a text in the dictionary of `from_string`: an unknown reason is
unspecified. -/
def ofText (reason : String) : CertificateRevocationReason :=
  if reason = "unspecified" then unspecified
  else if reason = "keyCompromise" then keyCompromise
  else if reason = "cACompromise" then caCompromise
  else if reason = "affiliationChanged" then affiliationChanged
  else if reason = "superseded" then superseded
  else if reason = "cessationOfOperation" then cessationOfOperation
  else if reason = "certificateHold" then certificateHold
  else if reason = "privilegeWithdrawn" then privilegesWithdrawn
  else if reason = "aACompromise" then aaCompromise
  else unspecified

/-- `from_string`: what is no text is unspecified too, but a list or a dictionary
cannot be looked up. -/
def fromString : Json → Except PyError CertificateRevocationReason
  | .str reason => .ok (ofText reason)
  | .list _ => .error (.typeError "unhashable type: 'list'")
  | .dict _ => .error (.typeError "unhashable type: 'dict'")
  | _ => .ok unspecified

/-- `to_string_ps_value`. -/
def toStringPsValue : CertificateRevocationReason → String
  | unspecified => "Unspecified"
  | keyCompromise => "KeyCompromise"
  | caCompromise => "CACompromise"
  | affiliationChanged => "AffiliationChanged"
  | superseded => "Superseded"
  | cessationOfOperation => "CeaseOfOperation"
  | certificateHold => "Hold"
  | privilegesWithdrawn => "Unspecified"
  | aaCompromise => "Unspecified"

end CertificateRevocationReason

/-- The text of `get_revoke_script`. -/
def revokeScript (ca : AuthorityData) (certificateSerialNumber : String)
    (reason : CertificateRevocationReason) : String :=
  "\n".intercalate [
    importModule,
    "Get-CertificationAuthority -Name \"" ++ ca.name ++ "\" | Get-IssuedRequest -Filter" ++
      " \"SerialNumber -eq " ++ certificateSerialNumber ++ "\" | Revoke-Certificate -Reason \"" ++
      reason.toStringPsValue ++ "\""]

/-- `get_revoke_script`. -/
def getRevokeScript (ca : AuthorityData) (certificateSerialNumber : String) (reason : Json) :
    Except PyError String := do
  let reason ← CertificateRevocationReason.fromString reason
  return revokeScript ca certificateSerialNumber reason

end AdcsConnector
