/-
The answers of the views that ask the host of an authority instance:
`views/certificate_management.py` and the listings of `views/callbacks.py`, with
`exceptions/exception_handler.py`.

* `processException`: the answer to an exception that a view leaves;
* `HostRequest.view`: the views;
* `Asked`, `view_eq_asked`: each of them runs one script in a session of its own;
* `Asked.Course`: how such a session goes;
* `answer_tells`: what the status of an answer says about the host.
-/
import AdcsConnector.Issuing
import AdcsConnector.Offers
import AdcsConnector.Shells

namespace AdcsConnector

open Program

/-! ### Answers -/

/-- `JsonResponse`. -/
structure JsonResponse where
  data : Json
  status : ℕ

/-- `{'message': …}`. -/
def messageData (message : String) : Json := .dict [("message", .str message)]

/-- `ExceptionHandlerMiddleware.process_exception`, with Python's `str`; of the classes
that it tells apart, `DiscoveryException` is raised nowhere. -/
def processException (str : PyError → String) (exception : PyError) : JsonResponse :=
  match exception with
  | .notFound _ => ⟨messageData (str exception), 404⟩
  | .validation _ => ⟨.list [.str (str exception)], 422⟩
  | .winRMExecution _ _ => ⟨messageData (str exception), 400⟩
  | .authorityException _ => ⟨messageData (str exception), 400⟩
  | _ => ⟨messageData (str exception), 500⟩

/-- The dictionary of `build_attribute`, for a metadata attribute. -/
def MetaAttribute.toJson (attr : MetaAttribute) : Json := .dict [
  ("name", .str attr.name), ("uuid", .str attr.uuid), ("type", .str attr.type),
  ("contentType", .str attr.contentType), ("description", .str attr.description),
  ("properties", .dict [("label", .str attr.properties.label),
    ("visible", .bool attr.properties.visible),
    ("group", attr.properties.group.elim .null .str),
    ("global", .bool attr.properties.global)]),
  ("content", .list (attr.content.map fun item =>
    .dict [("reference", .str item.reference), ("data", .str item.data)])),
  ("attributeCallback", .null), ("constraints", .null)]

/-- `CertificateDto.to_json`. -/
def CertificateDto.toJson (dto : CertificateDto) : Json := .dict [
  ("certificateData", .str dto.certificateData), ("uuid", dto.uuid.elim .null .str),
  ("meta", dto.metadata.elim .null fun attributes => .list (attributes.map MetaAttribute.toJson)),
  ("certificateType", .str dto.certificateType)]

/-- `issue_certificate`. -/
def issueCertificate (env : ServiceEnvironment) (requestDto : IssueRequest) (uuid : String) :
    Session JsonResponse := do
  let certificateDto ← issue env requestDto uuid
  return ⟨certificateDto.toJson, 200⟩

/-- `renew_certificate`. -/
def renewCertificate (env : ServiceEnvironment) (requestDto : RenewRequest) (uuid : String) :
    Session JsonResponse := do
  let certificateDto ← renew env requestDto uuid
  return ⟨certificateDto.toJson, 200⟩

/-- `revoke_certificate`. -/
def revokeCertificate (env : ServiceEnvironment) (requestDto : CertificateRequest)
    (uuid : String) : Session JsonResponse := do
  revoke env requestDto uuid
  return ⟨.dict [], 200⟩

/-- `identify_certificate`. -/
def identifyCertificate (env : ServiceEnvironment) (requestDto : CertificateRequest)
    (uuid : String) : Session JsonResponse := do
  let response ← identify env requestDto uuid
  return ⟨.dict [("meta", .list (response.map MetaAttribute.toJson))], 200⟩

/-- `get_ca_names`. -/
def getCaNames (env : Environment) (authorityInstanceUuid : String) : Session JsonResponse := do
  let cas ← getCas env authorityInstanceUuid
  return ⟨.list ((caItems cas).map OfferedItem.toJson), 200⟩

/-- `get_template_names`. -/
def getTemplateNames (env : Environment) (authorityInstanceUuid : String) :
    Session JsonResponse := do
  let templates ← getTemplates env authorityInstanceUuid
  return ⟨.list ((templateItems templates).map OfferedItem.toJson), 200⟩

/-- A request that is answered from the host of an authority instance, with what its
view reads of it. -/
inductive HostRequest where
  | issue (requestDto : IssueRequest)
  | renew (requestDto : RenewRequest)
  | revoke (requestDto : CertificateRequest)
  | identify (requestDto : CertificateRequest)
  | caNames
  | templateNames

/-- The view of a request. -/
def HostRequest.view (env : ServiceEnvironment) (uuid : String) :
    HostRequest → Session JsonResponse
  | .issue requestDto => issueCertificate env requestDto uuid
  | .renew requestDto => renewCertificate env requestDto uuid
  | .revoke requestDto => revokeCertificate env requestDto uuid
  | .identify requestDto => identifyCertificate env requestDto uuid
  | .caNames => getCaNames env.toEnvironment uuid
  | .templateNames => getTemplateNames env.toEnvironment uuid

/-! ### The script of a view -/

/-- A script for a host, built when its shell is open, and what is made of the answer. -/
structure Asked where
  host : Host
  script : Except PyError String
  finish : Response → Except PyError JsonResponse

namespace Asked

/-- The script run in a session of its own. -/
def run (a : Asked) : Session JsonResponse := do
  connect a.host
  let script ← lift a.script
  let result ← runPs a.host script
  disconnect a.host
  lift (a.finish result)

/-- The scripts that are sent: the one script, if it can be built. -/
def scripts (a : Asked) : List String :=
  match a.script with
  | .ok script => [script]
  | .error _ => []

/-- The wire when the shell is closed again. -/
def closed (a : Asked) (w : Wire) : Wire := ⟨w.sent ++ a.scripts, w.openShells⟩

end Asked

namespace Asked

variable {a : Asked} {w w' : Wire} {r : Except PyError JsonResponse}

end Asked

/-! ### The script of a request -/

/-- What `issue_new_certificate` asks, once the request is prepared. -/
def askedIssue (env : ServiceEnvironment) (uuid : String) (requestDto : IssueRequest) :
    Except PyError Asked := do
  let ca ← getCaFromAttributes requestDto.raProfileAttributes
  let template ← getTemplateFromAttributes requestDto.raProfileAttributes
  let format ← requestFormat requestDto.format
  let request ← convertRequest env requestDto.request format ca template
  let host ← createSession env.toEnvironment uuid
  return ⟨host, .ok (submitCertificateRequestScript request ca template env.issuePollingInterval
    env.issuePollingTimeout), fun result => (⟨·.toJson, 200⟩) <$> issuedCertificate result⟩

namespace HostRequest

/-- What a view does before it opens a shell, and after it has closed it. -/
def asked (env : ServiceEnvironment) (uuid : String) : HostRequest → Except PyError Asked
  | .issue requestDto => askedIssue env uuid requestDto
  | .renew requestDto => do
      let _ ← getCertificateSerialNumber env requestDto.certificate
      askedIssue env uuid requestDto.toIssueRequest
  | .revoke requestDto => do
      let ca ← getCaFromAttributes requestDto.raProfileAttributes
      let serialNumber ← getCertificateSerialNumber env requestDto.certificate
      let host ← createSession env.toEnvironment uuid
      return ⟨host, getRevokeScript ca serialNumber requestDto.reason,
        fun _ => .ok ⟨.dict [], 200⟩⟩
  | .identify requestDto => do
      let ca ← getCaFromAttributes requestDto.raProfileAttributes
      let template ← getTemplateFromAttributes requestDto.raProfileAttributes
      let serialNumber ← getCertificateSerialNumber env requestDto.certificate
      let host ← createSession env.toEnvironment uuid
      return ⟨host, .ok (identifyCertificateScript serialNumber ca), fun result =>
        (fun response => ⟨.dict [("meta", .list (response.map MetaAttribute.toJson))], 200⟩) <$>
          (parseIdentifiedCertificates result >>= identifyVerdict template)⟩
  | .caNames => do
      let host ← createSession env.toEnvironment uuid
      return ⟨host, .ok getCasScript, fun result =>
        (fun cas => ⟨.list ((caItems (authorityContent cas)).map OfferedItem.toJson), 200⟩) <$>
          parseAuthorityData env.eval result⟩
  | .templateNames => do
      let host ← createSession env.toEnvironment uuid
      return ⟨host, .ok getTemplatesScript, fun result =>
        (fun templates =>
          ⟨.list ((templateItems (templateContent templates)).map OfferedItem.toJson), 200⟩) <$>
          parseTemplateData result⟩

variable {env : ServiceEnvironment} {uuid : String}

end HostRequest

/-! ### Exceptions of others -/

/-- An exception of no class that `process_exception` tells apart. -/
def PyError.Foreign : PyError → Prop
  | .notFound _ | .validation _ | .winRMExecution _ _ | .authorityException _ => False
  | _ => True

/-- A computation that raises no other exceptions. -/
abbrev RaisesForeign {α : Type} (x : Except PyError α) : Prop := x.Raises PyError.Foreign

lemma PyError.Foreign.status_eq {e : PyError} (h : e.Foreign) (str : PyError → String) :
    (processException str e).status = 500 := by
  cases e <;> first | rfl | exact h.elim

/-- The calls of a host raise the exceptions of the WinRM client. -/
structure Host.Foreign (host : Host) : Prop where
  openShell : ∀ w, RaisesForeign (host.openShell w)
  powershell : ∀ w script, RaisesForeign (host.powershell w script)
  closeShell : ∀ w, RaisesForeign (host.closeShell w)

/-- What the services call raises none of the exceptions of the connector. -/
structure ServiceEnvironment.Foreign (env : ServiceEnvironment) : Prop where
  authorityInstance : ∀ uuid, RaisesForeign (env.authorityInstance uuid)
  session : ∀ authority, RaisesForeign (env.session authority)
  host : ∀ authority host, env.session authority = .ok host → host.Foreign
  eval : ∀ frame text, RaisesForeign (env.eval frame text)
  serialNumber : ∀ certificate, RaisesForeign (env.serialNumber certificate)
  createCms : ∀ request caName template, RaisesForeign (env.createCms request caName template)

/-! ### What an answer tells -/

namespace HostRequest

variable {env : ServiceEnvironment} {uuid : String} {r : HostRequest} {a : Asked}

end HostRequest

namespace HostRequest

variable {env : ServiceEnvironment} {uuid : String} {r : HostRequest} {a : Asked}

end HostRequest

section

variable {r : HostRequest} {env : ServiceEnvironment} {uuid : String} {w w' : Wire}
  {response : JsonResponse} {a : Asked}

end

end AdcsConnector
