/-
`services/certificate_management.py`: the services on one certificate of a
certification authority.

* `getCaFromAttributes`: the authority an RA profile names;
* `issueNewCertificate`, `revoke`, `identify`: a script run in a session of its own;
* `identifyVerdict`: what `identify` makes of the rows it finds, with
  `identifyVerdict_eq_ok_iff` and `identifyVerdict_eq_notFound_iff`.
-/
import AdcsConnector.Collection

namespace AdcsConnector

open Program

/-! ### Requests -/

/-- `get_ca_from_attributes`. -/
def getCaFromAttributes (attributes : List Attribute) : Except PyError AuthorityData :=
  let selectCaMethod := getAttributeValue "raprofile_select_ca_method" attributes
  if selectCaMethod = .str "search" then
    (getAttributeValue "raprofile_ca_name" attributes).authorityData
  else if selectCaMethod = .str "configstring" then
    match getAttributeValue "raprofile_config_string" attributes with
    | .missing | .str "" =>
        .error (.exception "ConfigString is required with selected CA Method: configstring")
    | .str configString => caOfConfigString configString
    | _ => .error (.attributeError "'dict' object has no attribute 'split'")
  else .error (concatError "Unknown CA Select Method: " selectCaMethod)

/-- The template an RA profile names. -/
def getTemplateFromAttributes (attributes : List Attribute) : Except PyError TemplateData :=
  (getAttributeValue "raprofile_template_name" attributes).templateData

/-- A request about a certificate; the reason is read by `revoke` only. -/
structure CertificateRequest where
  raProfileAttributes : List Attribute
  certificate : String
  reason : Json

/-- `objects/certificate_request_format.py`. -/
inductive CertificateRequestFormat where
  | crmf
  | pkcs10
  deriving DecidableEq

/-- What the certificate services find around them, besides the sessions: the
serial number `x509` reads from a base64 certificate, `create_cms`, and the
polling settings. -/
structure ServiceEnvironment extends Environment where
  serialNumber : String → Except PyError ℤ
  createCms : String → String → TemplateData → Except PyError String
  issuePollingInterval : ℤ
  issuePollingTimeout : ℤ

/-- `create_session_from_authority_instance_uuid`. -/
def createSession (env : Environment) (uuid : String) : Except PyError Host := do
  let authority ← env.authorityInstance uuid
  env.session authority

/-- `get_certificate_serial_number`. -/
def getCertificateSerialNumber (env : ServiceEnvironment) (certificate : String) :
    Except PyError String :=
  (env.serialNumber certificate).map formatHex

/-! ### Issuing -/

/-- The characters `str.splitlines` breaks at. -/
def isLineBreak (c : Char) : Bool :=
  c = '\n' || c = '\r' || c = '\x0b' || c = '\x0c' || c = '\x1c' || c = '\x1d' || c = '\x1e' ||
    c = '\u0085' || c = '\u2028' || c = '\u2029'

/-- `get_certificate_data`: the lines joined. -/
def getCertificateData (result : Response) : Except PyError String :=
  (decode result.stdOut).map fun inputString =>
    String.ofList (inputString.toList.filter (! isLineBreak ·))

/-- `objects/certificate_dto.py`, as an issued certificate is returned. -/
structure CertificateDto where
  certificateData : String
  uuid : Option String
  metadata : Option (List MetaAttribute)
  certificateType : String
  deriving DecidableEq

/-- The request in the format the script takes. -/
def convertRequest (env : ServiceEnvironment) (certificateRequest : String)
    (requestFormat : CertificateRequestFormat) (ca : AuthorityData) (template : TemplateData) :
    Except PyError String :=
  match requestFormat with
  | .crmf => env.createCms certificateRequest ca.name template
  | .pkcs10 => .ok certificateRequest

/-- The end of `issue_new_certificate`, on the output of the script. -/
def issuedCertificate (result : Response) : Except PyError CertificateDto := do
  let certificate ← getCertificateData result
  if certificate = "" then
    .error (.validation
      "Output of the certificate is empty, check the logs of the ADCS server.")
  else return ⟨certificate, none, none, "X.509"⟩

/-- `issue_new_certificate`. -/
def issueNewCertificate (env : ServiceEnvironment) (uuid certificateRequest : String)
    (requestFormat : CertificateRequestFormat) (ca : AuthorityData) (template : TemplateData) :
    Session CertificateDto := do
  let certificateRequest ← lift (convertRequest env certificateRequest requestFormat ca template)
  let host ← lift (createSession env.toEnvironment uuid)
  connect host
  let result ← runPs host (submitCertificateRequestScript certificateRequest ca template
    env.issuePollingInterval env.issuePollingTimeout)
  disconnect host
  lift (issuedCertificate result)

/-! ### Revoking and identifying -/

/-- `revoke`. -/
def revoke (env : ServiceEnvironment) (request : CertificateRequest) (uuid : String) :
    Session Unit := do
  let ca ← lift (getCaFromAttributes request.raProfileAttributes)
  let serialNumber ← lift (getCertificateSerialNumber env request.certificate)
  let host ← lift (createSession env.toEnvironment uuid)
  connect host
  let script ← lift (getRevokeScript ca serialNumber request.reason)
  let _ ← runPs host script
  disconnect host

/-- The end of `identify`, on the certificates found; the response carries no
metadata. -/
def identifyVerdict (template : TemplateData) :
    List IdentifiedCertificate → Except PyError (List MetaAttribute)
  | [] => .error (.notFound "Certificate not found")
  | [certificate] =>
      if certificate.certificateTemplate = template.oid ∨
          certificate.certificateTemplate = template.name then .ok []
      else .error (.validation
        "Certificate found but template does not match according to RA Profile attributes")
  | _ => .error (.validation "More than one certificate found")

/-- `identify`. -/
def identify (env : ServiceEnvironment) (request : CertificateRequest) (uuid : String) :
    Session (List MetaAttribute) := do
  let ca ← lift (getCaFromAttributes request.raProfileAttributes)
  let template ← lift (getTemplateFromAttributes request.raProfileAttributes)
  let serialNumber ← lift (getCertificateSerialNumber env request.certificate)
  let host ← lift (createSession env.toEnvironment uuid)
  connect host
  let result ← runPs host (identifyCertificateScript serialNumber ca)
  disconnect host
  let parsed ← lift (parseIdentifiedCertificates result)
  lift (identifyVerdict template parsed)

/-- A certificate is identified when it is the only one found and of the
template of the profile. -/
lemma identifyVerdict_eq_ok_iff {template : TemplateData} {found : List IdentifiedCertificate}
    {metadata : List MetaAttribute} :
    identifyVerdict template found = .ok metadata ↔
      metadata = [] ∧ ∃ certificate, found = [certificate] ∧
        (certificate.certificateTemplate = template.oid ∨
          certificate.certificateTemplate = template.name) := by
  match found with
  | [] => simp [identifyVerdict]
  | [certificate] =>
      by_cases h : certificate.certificateTemplate = template.oid ∨
          certificate.certificateTemplate = template.name
      · rw [identifyVerdict, if_pos h, Except.ok.injEq, eq_comm]
        simp [h]
      · simp [identifyVerdict, h]
  | _ :: _ :: _ => simp [identifyVerdict]

/-- It is not found when there is none. -/
lemma identifyVerdict_eq_notFound_iff {template : TemplateData}
    {found : List IdentifiedCertificate} :
    (∃ message, identifyVerdict template found = .error (.notFound message)) ↔ found = [] := by
  match found with
  | [] => simp [identifyVerdict]
  | [certificate] =>
      by_cases h : certificate.certificateTemplate = template.oid ∨
          certificate.certificateTemplate = template.name <;> simp [identifyVerdict, h]
  | _ :: _ :: _ => simp [identifyVerdict]

end AdcsConnector
