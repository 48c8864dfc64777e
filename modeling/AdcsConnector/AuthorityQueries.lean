/-
The services that ask the host of an authority instance: `verify_connection`,
`get_cas` and `get_templates` of `services/authority_instance.py`, and
`get_raprofile_attributes_list` of `services/attributes/raprofile_attributes.py`.
-/
import AdcsConnector.CertificateManagement

namespace AdcsConnector

open Program

/-- `verify_connection_script`. -/
def verifyConnectionScript : String := importModule

/-- `get_templates_script`. -/
def getTemplatesScript : String :=
  "\n".intercalate [
    importModule,
    "$TemplateList = @()",
    "(Get-CertificateTemplate) | Foreach-Object \x7b",
    "$template = $_",
    "$OutputObject = \"\" | Select Name, DisplayName, SchemaVersion, Version, OID",
    "$outputObject.Name = $template.Name",
    "$OutputObject.DisplayName = $template.DisplayName",
    "$OutputObject.SchemaVersion = $template.SchemaVersion",
    "$OutputObject.Version = $template.Version",
    "$OutputObject.OID = $template.Oid.Value",
    "$TemplateList += $OutputObject",
    "\x7d",
    "$TemplateList | Format-List"]

/-- `verify_connection`, for an authority instance with this transport. -/
def verifyConnection (env : Environment) (authority : env.AuthorityInstance)
    (transport : String) : Session Unit :=
  if transport = "credssp" then do
    let host ← lift (env.session authority)
    connect host
    let _ ← runPs host verifyConnectionScript
    disconnect host
  else lift (.error (.remotingException ("Unsupported transport type: " ++ transport)))

/-- The content of a list attribute: the display name and the object. -/
def authorityContent (cas : List AuthorityData) : List (String × AuthorityData) :=
  cas.map fun ca => (ca.displayName, ca)

/-- The content of a list attribute: the display name and the object. -/
def templateContent (templates : List TemplateData) : List (String × TemplateData) :=
  templates.map fun template => (template.displayName, template)

/-- `get_cas`. -/
def getCas (env : Environment) (authorityInstanceUuid : String) :
    Session (List (String × AuthorityData)) := do
  let host ← lift (createSession env authorityInstanceUuid)
  connect host
  let result ← runPs host getCasScript
  disconnect host
  let cas ← lift (parseAuthorityData env.eval result)
  return authorityContent cas

/-- `get_templates`. -/
def getTemplates (env : Environment) (authorityInstanceUuid : String) :
    Session (List (String × TemplateData)) := do
  let host ← lift (createSession env authorityInstanceUuid)
  connect host
  let result ← runPs host getTemplatesScript
  disconnect host
  let templates ← lift (parseTemplateData result)
  return templateContent templates

/-- `get_raprofile_attributes_list`: the content of its template attribute; the
other attributes are constants, and the uuid given. -/
def getRaprofileAttributesList (env : Environment) (uuid : String) :
    Session (String × List (String × TemplateData)) := do
  let authority ← lift (env.authorityInstance uuid)
  let host ← lift (env.session authority)
  connect host
  let result ← runPs host getTemplatesScript
  disconnect host
  let templates ← lift (parseTemplateData result)
  return (uuid, templateContent templates)

end AdcsConnector
