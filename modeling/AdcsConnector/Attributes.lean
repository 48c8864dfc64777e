/-
`services/attributes`: the attribute definitions that the connector sends, and the
callbacks with which the core fills them in.

* `AttributeDefinition`, `Callback`: what `build_attribute` makes, and its callback;
* `getAuthorityAttributesList`, `allAuthorityAttributesList`, `getDiscoveryAttributesList`,
  `raprofileAttributesList`: the lists that are sent or stored;
* `getDiscoveryCaSelectConfiguration`, `getRaprofileCaSelectConfiguration`: the views
  behind two of the callbacks;
* `callback_dispatched`: a callback in any of the lists reaches the view that it is
  meant for, with its values under their names.
-/
import AdcsConnector.AuthorityQueries
import AdcsConnector.Store.Process
import AdcsConnector.Urls

namespace AdcsConnector

open Program Route

/-! ### Definitions -/

/-- An entry of `mappings`: the placeholder `to`, and the attribute that its value comes
`from`, or the value. -/
structure Mapping where
  source : Option String
  target : String
  targets : List String
  value : Option String

/-- A path of the connector, which starts with a slash, or a service of the core. -/
inductive CallbackContext where
  | core (service : String)
  | connector (route : List Part)

/-- `attributeCallback`. -/
structure Callback where
  callbackContext : CallbackContext
  callbackMethod : String
  mappings : List Mapping

/-- `get_data_attribute_properties`. -/
structure DataAttributeProperties where
  label : String
  readOnly : Bool := false
  required : Bool := true
  list : Bool := false
  visible : Bool := true
  multiSelect : Bool := false

/-- `get_info_attribute_properties`. -/
structure InfoAttributeProperties where
  label : String
  visible : Bool := true
  group : Option String := none

/-- The `properties` of a definition. -/
inductive DefinitionProperties where
  | data (properties : DataAttributeProperties)
  | info (properties : InfoAttributeProperties)

/-- An item of the content that is offered. -/
structure OfferedItem where
  reference : Option String
  data : AttributeData

/-- A constraint on the value. -/
structure Constraint where
  type : String
  description : String
  errorMessage : String
  data : String

/-- `build_attribute`. -/
structure AttributeDefinition where
  name : String
  uuid : String
  attributeType : String
  contentType : Option String
  description : String
  properties : Option DefinitionProperties
  content : Option (List OfferedItem)
  callback : Option Callback
  constraints : Option (List Constraint)

/-- Items that refer to strings by themselves. -/
def stringItem (reference data : String) : OfferedItem := ⟨some reference, .str data⟩

/-! ### Certification authorities -/

/-- `utils/ca_select_method.py`. -/
inductive CaSelectMethod where
  | search
  | configstring
  deriving DecidableEq

namespace CaSelectMethod

/-- The string of a member. -/
def method : CaSelectMethod → String
  | search => "search"
  | configstring => "configstring"

/-- The description of a member. -/
def description : CaSelectMethod → String
  | search => "Search for all available CAs"
  | configstring => "Use the ConfigString to select existing CA"

/-- The members in the order of the class. -/
def members : List CaSelectMethod := [search, configstring]

/-- What the definitions offer. -/
def items : List OfferedItem := members.map fun m => stringItem m.description m.method

end CaSelectMethod

/-- The content that lists certification authorities. -/
def caItems (cas : List (String × AuthorityData)) : List OfferedItem :=
  cas.map fun ca => ⟨some ca.1, .authority ca.2⟩

/-- The content that lists templates. -/
def templateItems (templates : List (String × TemplateData)) : List OfferedItem :=
  templates.map fun template => ⟨some template.1, .template template.2⟩

/-! ### `authority_attributes.py` -/

def getAdcsInfoAttribute : AttributeDefinition where
  name := "authority_adcs_info"
  uuid := "870b612e-fd82-446f-bb5e-e9078ca117cc"
  attributeType := "info"
  contentType := "text"
  description := "How to use ADCS Attributes"
  properties := some (.info { label := "ADCS Information" })
  content := some [⟨none, .str ("### ADCS authority instance configuration using WinRM protocol\n\n"
    ++ "Choose the credential and server configuration to proceed.")⟩]
  callback := none
  constraints := none

def getCredentialTypeAttribute : AttributeDefinition where
  name := "authority_credential_type"
  uuid := "e05beb6a-90fe-4f85-bd9f-2394d70a0a29"
  attributeType := "data"
  contentType := "string"
  description := "Choose the credential type to use for authentication, it should be "
    ++ "compatible with selected protocol"
  properties := some (.data { label := "Credential Type", list := true })
  content := some [stringItem "Basic" "Basic"]
  callback := none
  constraints := none

def getCredentialAttribute : AttributeDefinition where
  name := "authority_credential"
  uuid := "93d77f65-d9c4-497c-bdee-f3330eb0f209"
  attributeType := "data"
  contentType := "credential"
  description := "Credential to authenticate with ADCS"
  properties := some (.data { label := "Credential", list := true })
  content := none
  callback := some {
    callbackContext := .core "core/getCredentials"
    callbackMethod := "GET"
    mappings := [⟨"authority_credential_type", "credentialKind", ["pathVariable"], none⟩] }
  constraints := none

def getWinrmTransportAttribute : AttributeDefinition where
  name := "authority_winrm_transport"
  uuid := "06cf66eb-5c1e-4edf-8308-617565a5d6b4"
  attributeType := "data"
  contentType := "string"
  description := "Choose the transport type to use for communication with ADCS"
  properties := some (.data { label := "WinRM Transport", list := true })
  content := some [stringItem "CredSSP" "credssp"]
  callback := none
  constraints := none

def getWinrmTransportConfigAttribute (kind : String) : AttributeDefinition where
  name := "authority_winrm_transport_config"
  uuid := "dd12711e-2daa-4b82-b167-0c2ee5f71df6"
  attributeType := "group"
  contentType := none
  description := "Configure transport specific attributes"
  properties := none
  content := none
  callback := some {
    callbackContext := .connector ["v1", "callbacks", "authority", "winrmConfig", .str "kind",
      .str "winrm_transport"]
    callbackMethod := "GET"
    mappings := [⟨"authority_winrm_transport.data", "winrm_transport", ["pathVariable"], none⟩,
      ⟨none, "kind", ["pathVariable"], kind⟩] }
  constraints := none

/-- The pattern of a server address. -/
def serverRegexp : String :=
  "^((([0-9]|[1-9][0-9]|1[0-9]\x7b2\x7d|2[0-4][0-9]|25[0-5])\\.)\x7b3\x7d([0-9]|" ++
    "[1-9][0-9]|1[0-9]\x7b2\x7d|2[0-4][0-9]|25[0-5])|(([a-zA-Z0-9]|[a-zA-Z0-9]" ++
    "[a-zA-Z0-9\\-]*[a-zA-Z0-9])\\.)*([A-Za-z0-9]|[A-Za-z0-9]" ++
    "[A-Za-z0-9\\-]*" ++
    "[A-Za-z0-9]))$"

def getServerAttribute : AttributeDefinition where
  name := "authority_server_address"
  uuid := "f2ee713a-c7cf-4b27-ae91-a84606b4877a"
  attributeType := "data"
  contentType := "string"
  description := "Server hostname where ADCS is running"
  properties := some (.data { label := "ADCS server address" })
  content := none
  callback := none
  constraints := some [⟨"regExp", "Address of ADCS Server", "Enter Valid Address", serverRegexp⟩]

def getUseHttpsAttribute : AttributeDefinition where
  name := "authority_use_https"
  uuid := "645d3690-b460-43e7-94c9-9374cf5f14b3"
  attributeType := "data"
  contentType := "boolean"
  description := "Use HTTPS to connect to ADCS"
  properties := some (.data { label := "Use HTTPS", required := false })
  content := some [stringItem "True" "true"]
  callback := none
  constraints := none

def getWinrmPortAttribute : AttributeDefinition where
  name := "authority_winrm_port"
  uuid := "079f9f93-adc0-48bd-96f1-095991295cb9"
  attributeType := "data"
  contentType := "integer"
  description := "WinRM port, default port for http is 5985 and for https 5986"
  properties := some (.data { label := "WinRM Port" })
  content := some [stringItem "5985" "5985"]
  callback := none
  constraints := none

/-- `validate_authority_kind`, for the definitions. -/
def validateAuthorityKind (kind : String) : Except PyError Unit :=
  if kind = "PyADCS-WinRM" then .ok ()
  else .error (.valueError ("Unrecognized authority kind: " ++ kind))

/-- `get_authority_attributes_list`. -/
def getAuthorityAttributesList (kind : String) : Except PyError (List AttributeDefinition) := do
  validateAuthorityKind kind
  return [getAdcsInfoAttribute, getCredentialTypeAttribute, getCredentialAttribute,
    getServerAttribute, getUseHttpsAttribute, getWinrmPortAttribute, getWinrmTransportAttribute]

/-- `get_all_authority_attributes_list`. -/
def allAuthorityAttributesList (kind winrmTransport : String) :
    Except PyError (List AttributeDefinition) := do
  validateAuthorityKind kind
  if winrmTransport ≠ "credssp" then
    .error (.valueError ("Unrecognized protocol: " ++ winrmTransport))
  else return [getAdcsInfoAttribute, getCredentialTypeAttribute, getCredentialAttribute,
    getServerAttribute, getUseHttpsAttribute, getWinrmPortAttribute, getWinrmTransportAttribute,
    getWinrmTransportConfigAttribute kind]

/-- `get_winrm_transport_configuration_attributes_list`. -/
def getWinrmTransportConfigurationAttributesList (kind winrmTransport : String) :
    Except PyError (List AttributeDefinition) := do
  validateAuthorityKind kind
  if winrmTransport ≠ "credssp" then
    .error (.valueError ("Unrecognized protocol: " ++ winrmTransport))
  else return []

/-! ### `discovery_attributes.py` -/

def getDiscoveryInfoAttribute : AttributeDefinition where
  name := "discovery_info"
  uuid := "6daef143-0c76-46db-a162-bc38cf70951f"
  attributeType := "info"
  contentType := "text"
  description := "How to use Discovery Attributes"
  properties := some (.info { label := "Discovery Information" })
  content := some [⟨none, .str ("### Configuration of ADCS certificate discovery\n\n"
    ++ "Discovery by default runs on all authorities and templates.\n"
    ++ "It is looking for all certificates that have disposition >= 12 and <= 21.\n\n"
    ++ "If you want to limit the discovery to specific authorities or templates, then select the "
    ++ "corresponding values.")⟩]
  callback := none
  constraints := none

/-- The names and uuids of the authority instances of the kind are offered. -/
def getAuthorityInstancesAttribute (instances : List (String × String)) : AttributeDefinition where
  name := "discovery_authority_instance"
  uuid := "b0026fc5-cbee-447b-9e6c-1b1a20f183e4"
  attributeType := "data"
  contentType := "object"
  description := "Choose the authority instance to use"
  properties := some (.data { label := "Authority Instance", list := true })
  content := some (instances.map fun i => ⟨some i.1, .authorityInstance i.1 i.2⟩)
  callback := none
  constraints := none

def getSelectCaMethodAttribute : AttributeDefinition where
  name := "discovery_select_ca_method"
  uuid := "ad5e1ca6-a018-43b3-8d36-17a1deb61cb8"
  attributeType := "data"
  contentType := "string"
  description := "Select how the CA will be chosen, either by ComputerName or search"
  properties := some (.data { label := "Select CA Method", list := true })
  content := some CaSelectMethod.items
  callback := none
  constraints := none

def getCaSelectGroupAttribute : AttributeDefinition where
  name := "discovery_ca_select_group"
  uuid := "b5cd936c-5375-48d9-bd34-4e859195f1af"
  attributeType := "group"
  contentType := none
  description := "For identification of select CA method"
  properties := none
  content := none
  callback := some {
    callbackContext := .connector ["v1", "callbacks", "discovery", "caSelect",
      .str "ca_select_method", .str "authority_instance_uuid"]
    callbackMethod := "GET"
    mappings := [
      ⟨"discovery_select_ca_method.data", "ca_select_method", ["pathVariable"], none⟩,
      ⟨"discovery_authority_instance.data.uuid", "authority_instance_uuid", ["pathVariable"],
        none⟩] }
  constraints := none

def getTemplateNameAttribute : AttributeDefinition where
  name := "discovery_template_name"
  uuid := "53286673-be2a-453f-9998-cab67dbb4620"
  attributeType := "data"
  contentType := "object"
  description := "Select certificate templates to use"
  properties := some (.data {
    label := "Certificate Template Name", required := false, list := true, multiSelect := true })
  content := none
  callback := some {
    callbackContext := .connector ["v1", "callbacks", "discovery", "listTemplate",
      .str "authority_instance_uuid"]
    callbackMethod := "GET"
    mappings := [⟨"discovery_authority_instance.data.uuid", "authority_instance_uuid",
      ["pathVariable"], none⟩] }
  constraints := none

def getIssuedAfterAttribute : AttributeDefinition where
  name := "discovery_issued_after"
  uuid := "f1b49091-de61-4806-95de-02ed94f8f954"
  attributeType := "data"
  contentType := "datetime"
  description := "Select certificates issued after this date (notBefore)"
  properties := some (.data { label := "Issued After", required := false })
  content := none
  callback := none
  constraints := none

def getDiscoveryCaNameAttribute (cas : List (String × AuthorityData)) : AttributeDefinition where
  name := "discovery_ca_name"
  uuid := "c725fa53-a3f2-4d24-909d-c40a52a93c01"
  attributeType := "data"
  contentType := "object"
  description := "Identification of the certification authority"
  properties := some (.data {
    label := "CA Name", required := false, list := true, multiSelect := true })
  content := some (caItems cas)
  callback := none
  constraints := none

def getDiscoveryConfigStringAttribute : AttributeDefinition where
  name := "discovery_config_string"
  uuid := "ab4f8573-bf55-4863-b2ce-44597b111cf9"
  attributeType := "data"
  contentType := "string"
  description := "ConfigString of the CA"
  properties := some (.data { label := "CA ConfigString", required := false })
  content := none
  callback := none
  constraints := none

/-- `get_discovery_attributes_list`, with the authority instances of the kind. -/
def getDiscoveryAttributesList (instances : List (String × String)) (kind : String) :
    Except PyError (List AttributeDefinition) := do
  validateDiscoveryKind kind
  return [getDiscoveryInfoAttribute, getAuthorityInstancesAttribute instances,
    getSelectCaMethodAttribute, getCaSelectGroupAttribute, getTemplateNameAttribute,
    getIssuedAfterAttribute]

/-! ### `raprofile_attributes.py` -/

def getRaprofileSelectCaMethodAttribute : AttributeDefinition where
  name := "raprofile_select_ca_method"
  uuid := "9b5b38a2-9bcc-4178-8d02-7817cc3f3ada"
  attributeType := "data"
  contentType := "string"
  description := "Select how the CA will be chosen, either by ComputerName or search"
  properties := some (.data { label := "Select CA Method", list := true })
  content := some CaSelectMethod.items
  callback := none
  constraints := none

def getAuthorityUuidAttribute (authorityUuid : String) : AttributeDefinition where
  name := "raprofile_authority_uuid"
  uuid := "8c4c213a-9bd4-4d49-9812-a539a2deac16"
  attributeType := "data"
  contentType := "string"
  description := "UUID of selected authority"
  properties := some (.data { label := "Authority UUID", visible := false })
  content := some [stringItem authorityUuid authorityUuid]
  callback := none
  constraints := none

def getRaprofileCaSelectGroupAttribute : AttributeDefinition where
  name := "raprofile_ca_select_group"
  uuid := "0f26f6a0-94ca-420b-bbd8-4324218d7692"
  attributeType := "group"
  contentType := none
  description := "For identification of select CA method"
  properties := none
  content := none
  callback := some {
    callbackContext := .connector ["v1", "callbacks", "raProfile", "caSelect",
      .str "ca_select_method", .str "authority_instance_uuid"]
    callbackMethod := "GET"
    mappings := [
      ⟨"raprofile_select_ca_method.data", "ca_select_method", ["pathVariable"], none⟩,
      ⟨"raprofile_authority_uuid.data", "authority_instance_uuid", ["pathVariable"], none⟩] }
  constraints := none

def getRaprofileTemplateNameAttribute (templates : List (String × TemplateData)) :
    AttributeDefinition where
  name := "raprofile_template_name"
  uuid := "da285a61-822a-4508-a565-ce366de66980"
  attributeType := "data"
  contentType := "object"
  description := "Select certificate templates to use"
  properties := some (.data { label := "Certificate Template Name", list := true })
  content := some (templateItems templates)
  callback := none
  constraints := none

def getRaprofileConfigStringAttribute : AttributeDefinition where
  name := "raprofile_config_string"
  uuid := "2cc47472-f01c-40fd-8291-a2937dacec53"
  attributeType := "data"
  contentType := "string"
  description := "ConfigString of the CA"
  properties := some (.data { label := "CA ConfigString", required := false })
  content := none
  callback := none
  constraints := none

def getRaprofileCaNameAttribute (cas : List (String × AuthorityData)) : AttributeDefinition where
  name := "raprofile_ca_name"
  uuid := "86a3fcb9-d74e-4b2c-b78d-3f71b1181472"
  attributeType := "data"
  contentType := "object"
  description := "Identification of the certification authority"
  properties := some (.data { label := "CA Name", required := false, list := true })
  content := some (caItems cas)
  callback := none
  constraints := none

/-- The list that `get_raprofile_attributes_list` makes of the uuid and the templates. -/
def raprofileAttributesList (uuid : String) (templates : List (String × TemplateData)) :
    List AttributeDefinition :=
  [getRaprofileSelectCaMethodAttribute, getAuthorityUuidAttribute uuid,
    getRaprofileCaSelectGroupAttribute, getRaprofileTemplateNameAttribute templates]

/-! ### The views of the callbacks -/

/-- The branches on `ca_select_method` of two views that differ in the definitions. -/
def caSelectConfiguration (env : Environment) (configString : AttributeDefinition)
    (caName : List (String × AuthorityData) → AttributeDefinition)
    (caSelectMethod authorityInstanceUuid : String) : Session (List AttributeDefinition) :=
  if caSelectMethod = CaSelectMethod.configstring.method then pure [configString]
  else if caSelectMethod = CaSelectMethod.search.method then do
    let cas ← getCas env authorityInstanceUuid
    return [caName cas]
  else lift (.error (.exception ("Unknown CA Select Method: " ++ caSelectMethod)))

/-- `get_discovery_ca_select_configuration`. -/
def getDiscoveryCaSelectConfiguration (env : Environment) :
    String → String → Session (List AttributeDefinition) :=
  caSelectConfiguration env getDiscoveryConfigStringAttribute getDiscoveryCaNameAttribute

/-- `get_raprofile_ca_select_configuration`. -/
def getRaprofileCaSelectConfiguration (env : Environment) :
    String → String → Session (List AttributeDefinition) :=
  caSelectConfiguration env getRaprofileConfigStringAttribute getRaprofileCaNameAttribute

/-! ### Where the callbacks lead -/

/-- `merge_attributes`, for the definitions: those that are requested, each with the
content that is requested under its name. -/
def mergeDefinitions (requested : List (String × List OfferedItem))
    (defs : List AttributeDefinition) : List AttributeDefinition :=
  defs.filterMap fun d => (Dict.get? requested d.name).map fun content =>
    { d with content := some content }

/-- The lists of definitions that the connector sends, or stores with an instance. -/
inductive Sent : List AttributeDefinition → Prop
  | authority {kind : String} {defs : List AttributeDefinition}
      (h : getAuthorityAttributesList kind = .ok defs) : Sent defs
  -- the transport, which the list is chosen by, is read from the request
  | stored {kind winrmTransport : String} {defs : List AttributeDefinition}
      {requested : List (String × List OfferedItem)}
      (h : allAuthorityAttributesList kind winrmTransport = .ok defs)
      (htransport : "authority_winrm_transport" ∈ Dict.keys requested) :
      Sent (mergeDefinitions requested defs)
  | discovery {instances : List (String × String)} {kind : String}
      {defs : List AttributeDefinition} (h : getDiscoveryAttributesList instances kind = .ok defs) :
      Sent defs
  | raprofile (uuid : String) (templates : List (String × TemplateData)) :
      Sent (raprofileAttributesList uuid templates)

/-- The view that the callback of a definition is meant for. -/
def callbackView : String → Option View
  | "authority_winrm_transport_config" => some .getWinrmTransportConfiguration
  | "discovery_ca_select_group" => some .getDiscoveryCaSelectConfiguration
  | "discovery_template_name" => some .getTemplateNames
  | "raprofile_ca_select_group" => some .getRaprofileCaSelectConfiguration
  | _ => none

/-- What can be said of a callback without the values: its path is the route of its view,
which permits the method; the mappings are those of the placeholders; and a value comes
from an attribute of the same list. -/
structure WellMapped (defs : List AttributeDefinition) (d : AttributeDefinition) (c : Callback)
    (p : List Part) : Prop where
  leads : ∃ view, callbackView d.name = some view ∧ (p, view) ∈ urlpatterns ∧
    c.callbackMethod ∈ view.methods
  targets : (c.mappings.map Mapping.target).Perm (names p)
  sources : ∀ m ∈ c.mappings, (∃ value, m.source = none ∧ m.value = some value) ∨
    ∃ d' ∈ defs, m.source = some (d'.name ++ ".data") ∨ m.source = some (d'.name ++ ".data.uuid")

/-- An attribute stored is one of the definitions, but for its content. -/
lemma exists_of_mem_mergeDefinitions {requested : List (String × List OfferedItem)}
    {defs : List AttributeDefinition} {d : AttributeDefinition}
    (h : d ∈ mergeDefinitions requested defs) : ∃ d₀ ∈ defs, ∃ content,
      Dict.get? requested d₀.name = some content ∧ d = { d₀ with content := some content } := by
  obtain ⟨d₀, hd₀, hmap⟩ := List.mem_filterMap.mp h
  obtain ⟨content, hcontent, rfl⟩ := Option.map_eq_some_iff.mp hmap
  exact ⟨d₀, hd₀, content, hcontent, rfl⟩

/-- A definition that is requested is stored. -/
lemma mem_mergeDefinitions {requested : List (String × List OfferedItem)}
    {defs : List AttributeDefinition} {d : AttributeDefinition} (hd : d ∈ defs)
    {content : List OfferedItem} (h : Dict.get? requested d.name = some content) :
    { d with content := some content } ∈ mergeDefinitions requested defs :=
  List.mem_filterMap.mpr ⟨d, hd, by rw [h]; rfl⟩

section WellMapped

variable {defs : List AttributeDefinition} {c : Callback} {p : List Part}

lemma wellMapped_winrmConfig {kind : String} {content : Option (List OfferedItem)}
    {d : AttributeDefinition} (hd : d ∈ defs) (hname : d.name = "authority_winrm_transport")
    (hc : (getWinrmTransportConfigAttribute kind).callback = some c)
    (hp : c.callbackContext = .connector p) :
    WellMapped defs { getWinrmTransportConfigAttribute kind with content := content } c p := by
  cases hc
  cases hp
  refine ⟨⟨_, rfl, by decide +kernel, List.mem_cons_self⟩, List.Perm.swap .., ?_⟩
  refine List.forall_mem_cons.mpr ⟨.inr ⟨d, hd, .inl (by rw [hname]; rfl)⟩, ?_⟩
  exact List.forall_mem_singleton.mpr (.inl ⟨kind, rfl, rfl⟩)

lemma wellMapped_caSelectGroup (hmethod : getSelectCaMethodAttribute ∈ defs)
    (instances : List (String × String))
    (hinstance : getAuthorityInstancesAttribute instances ∈ defs)
    (hc : getCaSelectGroupAttribute.callback = some c) (hp : c.callbackContext = .connector p) :
    WellMapped defs getCaSelectGroupAttribute c p := by
  cases hc
  cases hp
  refine ⟨⟨_, rfl, by decide +kernel, List.mem_cons_self⟩, .refl _, ?_⟩
  refine List.forall_mem_cons.mpr ⟨.inr ⟨_, hmethod, .inl rfl⟩, ?_⟩
  exact List.forall_mem_singleton.mpr (.inr ⟨_, hinstance, .inr rfl⟩)

lemma wellMapped_templateName (instances : List (String × String))
    (hinstance : getAuthorityInstancesAttribute instances ∈ defs)
    (hc : getTemplateNameAttribute.callback = some c) (hp : c.callbackContext = .connector p) :
    WellMapped defs getTemplateNameAttribute c p := by
  cases hc
  cases hp
  refine ⟨⟨_, rfl, by decide +kernel, List.mem_cons_self⟩, .refl _, ?_⟩
  exact List.forall_mem_singleton.mpr (.inr ⟨_, hinstance, .inr rfl⟩)

lemma wellMapped_raprofileCaSelectGroup (hmethod : getRaprofileSelectCaMethodAttribute ∈ defs)
    (uuid : String) (huuid : getAuthorityUuidAttribute uuid ∈ defs)
    (hc : getRaprofileCaSelectGroupAttribute.callback = some c)
    (hp : c.callbackContext = .connector p) :
    WellMapped defs getRaprofileCaSelectGroupAttribute c p := by
  cases hc
  cases hp
  refine ⟨⟨_, rfl, by decide +kernel, List.mem_cons_self⟩, .refl _, ?_⟩
  refine List.forall_mem_cons.mpr ⟨.inr ⟨_, hmethod, .inl rfl⟩, ?_⟩
  exact List.forall_mem_singleton.mpr (.inr ⟨_, huuid, .inl rfl⟩)

/-- A definition with a callback into the connector is mapped to its view. -/
lemma Sent.wellMapped (hsent : Sent defs) {d : AttributeDefinition} (hd : d ∈ defs)
    (hc : d.callback = some c) (hp : c.callbackContext = .connector p) :
    WellMapped defs d c p := by
  cases hsent with
  | authority h =>
      obtain ⟨_, -, hdefs⟩ := Except.bind_eq_ok_iff.mp h
      cases hdefs
      simp only [List.mem_cons, List.not_mem_nil, or_false] at hd
      -- the only callback goes to the core
      rcases hd with rfl | rfl | rfl | rfl | rfl | rfl | rfl <;> cases hc
      cases hp
  | @stored kind transport defs requested h htransport =>
      obtain ⟨_, -, hdefs⟩ := Except.bind_eq_ok_iff.mp h
      split_ifs at hdefs
      cases hdefs
      -- the transport is among the attributes stored
      obtain ⟨content, hcontent, -⟩ := Dict.get?_of_mem_keys htransport
      obtain ⟨d₀, hd₀, content', -, rfl⟩ := exists_of_mem_mergeDefinitions hd
      simp only [List.mem_cons, List.not_mem_nil, or_false] at hd₀
      rcases hd₀ with rfl | rfl | rfl | rfl | rfl | rfl | rfl | rfl
      case inr.inr.inr.inr.inr.inr.inr =>
        exact wellMapped_winrmConfig (mem_mergeDefinitions (d := getWinrmTransportAttribute)
          (by simp) hcontent) rfl hc hp
      case inr.inr.inl => cases hc; cases hp
      all_goals cases hc
  | @discovery instances kind _ h =>
      obtain ⟨_, -, hdefs⟩ := Except.bind_eq_ok_iff.mp h
      cases hdefs
      simp only [List.mem_cons, List.not_mem_nil, or_false] at hd
      rcases hd with rfl | rfl | rfl | rfl | rfl | rfl
      case inr.inr.inr.inl =>
        exact wellMapped_caSelectGroup (by simp) instances (by simp) hc hp
      case inr.inr.inr.inr.inl =>
        exact wellMapped_templateName instances (by simp) hc hp
      all_goals cases hc
  | raprofile uuid templates =>
      simp only [raprofileAttributesList, List.mem_cons, List.not_mem_nil, or_false] at hd
      rcases hd with rfl | rfl | rfl | rfl
      case inr.inr.inl =>
        refine wellMapped_raprofileCaSelectGroup ?_ uuid ?_ hc hp <;>
          simp [raprofileAttributesList]
      all_goals cases hc

end WellMapped

/-- **A callback reaches its view.** In every list of definitions that the connector
sends or stores, a callback into the connector, filled in with any values for its
placeholders that are segments, calls the view that it is meant for, each value under
the name that the mapping gives it; every placeholder is mapped, to a value or to an
attribute of the same list. -/
theorem callback_dispatched {defs : List AttributeDefinition} (hsent : Sent defs)
    {d : AttributeDefinition} (hd : d ∈ defs) {c : Callback} (hc : d.callback = some c)
    {p : List Part} (hp : c.callbackContext = .connector p) (ρ : String → String)
    (hρ : ∀ m ∈ c.mappings, IsSegment (ρ m.target)) :
    (∃ view, callbackView d.name = some view ∧
      (c.mappings.map Mapping.target).Perm view.parameters ∧
      dispatch c.callbackMethod (url p ((names p).map ρ)) =
        .call view (view.parameters.map fun name => (name, ρ name))) ∧
    ∀ m ∈ c.mappings, (∃ value, m.source = none ∧ m.value = some value) ∨
      ∃ d' ∈ defs, m.source = some (d'.name ++ ".data") ∨
        m.source = some (d'.name ++ ".data.uuid") := by
  obtain ⟨⟨view, hview, hroute, hmethod⟩, htargets, hsources⟩ := hsent.wellMapped hd hc hp
  have hnames : names p = view.parameters := names_urlpatterns _ hroute
  have hvalues : ∀ v ∈ (names p).map ρ, IsSegment v := by
    intro v hv
    obtain ⟨name, hname, rfl⟩ := List.mem_map.mp hv
    obtain ⟨m, hm, rfl⟩ := List.mem_map.mp (htargets.mem_iff.mpr hname)
    exact hρ m hm
  have hlength : ((names p).map ρ).length = view.parameters.length := by
    rw [List.length_map, hnames]
  have hfree : ¬ Shadowed view ((names p).map ρ) := by
    rintro ⟨rfl | rfl, -⟩ <;> revert hview <;> unfold callbackView <;> split <;> simp
  refine ⟨⟨view, hview, hnames ▸ htargets, ?_⟩, hsources⟩
  rw [url, dispatch_slash, (resolve_fill hroute hlength hvalues).mpr hfree, hnames,
    List.map_prod_left_eq_zip]
  exact if_pos hmethod

/-- The authorities of the instance `7` are asked for. -/
theorem callback_dispatched_sample :
    dispatch "GET" (url ["v1", "callbacks", "discovery", "caSelect", .str "ca_select_method",
      .str "authority_instance_uuid"] ["search", "7"]) =
    .call .getDiscoveryCaSelectConfiguration
      [("ca_select_method", "search"), ("authority_instance_uuid", "7")] := by
  obtain ⟨⟨view, hview, -, hcall⟩, -⟩ := callback_dispatched
    (@Sent.discovery [("ADCS", "7")] "PyADCS-WinRM" _ rfl)
    (d := getCaSelectGroupAttribute) (by simp) rfl rfl
    (fun name => if name = "ca_select_method" then "search" else "7") (by decide)
  obtain rfl : View.getDiscoveryCaSelectConfiguration = view := Option.some.inj hview
  exact hcall

end AdcsConnector
