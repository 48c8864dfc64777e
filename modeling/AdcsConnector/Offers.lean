/-
What the connector offers, it reads back.

The authorities and templates that the callbacks list are sent as the dictionaries of
their objects, `ca.__dict__`, and come back as the content of a request, where they are
read key by key.

* `AttributeData.toJson`: a datum as it is sent;
* `Dictionary`: the reading of a request in terms of its JSON dictionaries;
* `reading_refines`: on every request that holds such data it agrees with the reading
  in terms of objects, the exceptions included;
* `Host.Stateless`: a host whose answers do not depend on what has been done before;
* `select_all_offered`: to choose all the authorities that are listed is to choose none.
-/
import Mathlib
import AdcsConnector.Attributes
import AdcsConnector.Authority.Instance

namespace AdcsConnector

open Program Text

/-! ### As it is sent -/

/-- `json.dumps` of a value. -/
def PyValue.toJson : PyValue → Json
  | none => .null
  | bool b => .bool b
  | int n => .number n.repr
  | str s => .str s

/-- `ca.__dict__`. -/
def AuthorityData.dict (ca : AuthorityData) : List (String × Json) := [
  ("name", .str ca.name), ("display_name", .str ca.displayName),
  ("computer_name", .str ca.computerName), ("config_string", .str ca.configString),
  ("ca_type", .str ca.caType), ("is_enterprise", ca.isEnterprise.toJson),
  ("is_root", ca.isRoot.toJson), ("is_accessible", ca.isAccessible.toJson),
  ("service_status", ca.serviceStatus.toJson)]

/-- `template.__dict__`. -/
def TemplateData.dict (template : TemplateData) : List (String × Json) := [
  ("name", .str template.name), ("display_name", .str template.displayName),
  ("schema_version", .str template.schemaVersion), ("version", .str template.version),
  ("oid", .str template.oid)]

/-- The datum of an item. -/
def AttributeData.toJson : AttributeData → Json
  | missing => .null
  | str s => .str s
  | authorityInstance name uuid => .dict [("uuid", .str uuid), ("name", .str name)]
  | authority ca => .dict ca.dict
  | template t => .dict t.dict

/-- An item of an offered content. -/
def OfferedItem.toJson (item : OfferedItem) : Json :=
  .dict (item.reference.toList.map (fun r => ("reference", .str r)) ++ [("data", item.data.toJson)])

lemma PyValue.toJson_injective : Function.Injective PyValue.toJson := by
  intro a b h
  cases a <;> cases b <;> simp_all [PyValue.toJson]

/-- The object is determined by its dictionary. -/
lemma AuthorityData.dict_injective : Function.Injective AuthorityData.dict := by
  rintro ⟨⟩ ⟨⟩ h
  simp only [AuthorityData.dict, List.cons.injEq, Prod.mk.injEq, Json.str.injEq, true_and,
    and_true, PyValue.toJson_injective.eq_iff] at h
  simp only [AuthorityData.mk.injEq]
  tauto

lemma TemplateData.dict_injective : Function.Injective TemplateData.dict := by
  rintro ⟨⟩ ⟨⟩ h
  simp only [TemplateData.dict, List.cons.injEq, Prod.mk.injEq, Json.str.injEq, true_and,
    and_true] at h
  simp only [TemplateData.mk.injEq]
  tauto

/-! ### As it is read -/

namespace Dictionary

/-- A number that is zero, as it is written. -/
def isZero (text : String) : Bool :=
  (text.toList.takeWhile fun c => c ≠ 'e' ∧ c ≠ 'E').all fun c => c = '0' || c = '.' || c = '-'

/-- `bool(value)`. -/
def truthy : Json → Bool
  | .null => false
  | .bool b => b
  | .number text => ! isZero text
  | .str s => s ≠ ""
  | .list items => ! items.isEmpty
  | .dict fields => ! fields.isEmpty

/-- `type(value).__name__`. -/
def typeName : Json → String
  | .null => "NoneType"
  | .bool _ => "bool"
  | .number text =>
      if text.toList.any fun c => c = '.' || c = 'e' || c = 'E' then "float" else "int"
  | .str _ => "str"
  | .list _ => "list"
  | .dict _ => "dict"

/-- `value.get(key)`. -/
def get (key : String) : Json → Except PyError (Option Json)
  | .dict fields => .ok (Dict.get? fields key)
  | value => .error (.attributeError ("'" ++ typeName value ++ "' object has no attribute 'get'"))

/-- `value[key]`. -/
def subscript (value : Json) (key : String) : Except PyError Json :=
  match value with
  | .dict fields =>
      match Dict.get? fields key with
      | some v => .ok v
      | none => .error (.keyError key)
  | .str _ => .error (.typeError "string indices must be integers, not 'str'")
  | .list _ => .error (.typeError "list indices must be integers or slices, not str")
  | value => .error (.typeError ("'" ++ typeName value ++ "' object is not subscriptable"))

/-- The keys that a `from_dict` reads, in order. -/
def fromDict (keys : List String) (value : Json) : Except PyError (List Json) :=
  keys.mapM (subscript value)

/-- `attribute.get("content", …)` of an attribute of the name, when it is not empty. -/
def contents (attributeName : String) (attr : Json) : Except PyError (Option Json) := do
  match ← get "name" attr with
  | some (.str name) =>
      if name = attributeName then do
        let content ← get "content" attr
        match content.getD (.dict []) with
        | .bool true => .error (.typeError "object of type 'bool' has no len()")
        | .number text =>
            if isZero text then return none
            else .error (.typeError ("object of type '" ++ typeName (.number text) ++
              "' has no len()"))
        | content => if truthy content then return some content else return none
      else return none
  | _ => return none

/-- `item.get("data")`. -/
def datum (item : Json) : Except PyError Json := do
  let data ← get "data" item
  return data.getD .null

/-- `get_attribute_value`. -/
def getAttributeValue (attributeName : String) : List Json → Except PyError Json
  | [] => .ok (.str "")
  | attr :: attributes => do
      match ← contents attributeName attr with
      | some (.list (item :: _)) => datum item
      | some (.str s) => datum (.str s)
      | some (.dict _) => .error (.keyError "0")
      | _ => getAttributeValue attributeName attributes

/-- `get_attribute_value_list`. -/
def getAttributeValueList (attributeName : String) : List Json → Except PyError (List Json)
  | [] => .ok []
  | attr :: attributes => do
      match ← contents attributeName attr with
      | some (.list items) => items.mapM datum
      -- a string is iterated by its characters, a dictionary by its keys
      | some (.str s) => (fun j => [j]) <$> datum (.str s)
      | some (.dict ((key, _) :: _)) => (fun j => [j]) <$> datum (.str key)
      | _ => getAttributeValueList attributeName attributes

/-- `AuthorityData.from_dict`. -/
def authorityData : Json → Except PyError (List Json) :=
  fromDict ["name", "display_name", "computer_name", "config_string", "ca_type", "is_enterprise",
    "is_root", "is_accessible", "service_status"]

/-- `TemplateData.from_dict`. -/
def templateData : Json → Except PyError (List Json) :=
  fromDict ["name", "display_name", "schema_version", "version", "oid"]

/-- `AuthorityInstanceAttribute.from_dict`, and its uuid. -/
def authorityInstanceUuid (value : Json) : Except PyError Json := do
  let _ ← subscript value "name"
  subscript value "uuid"

/-- The authority of a ConfigString. -/
def caOfConfigStringValue : Json → Except PyError AuthorityData
  | .str s =>
      if s = "" then
        .error (.exception "ConfigString is required with selected CA Method: configstring")
      else caOfConfigString s
  | value =>
      if truthy value then
        .error (.attributeError ("'" ++ typeName value ++ "' object has no attribute 'split'"))
      else .error (.exception "ConfigString is required with selected CA Method: configstring")

/-- `"Unknown CA Select Method: " + value`. -/
def unknownMethod : Json → PyError
  | .str s => .exception ("Unknown CA Select Method: " ++ s)
  | value =>
      .typeError ("can only concatenate str (not \"" ++ typeName value ++ "\") to str")

/-- The branches of `discover_certificates` on `discovery_select_ca_method`. -/
def selectCas (attributes : List Json) : Except PyError (List (List Json)) := do
  match ← getAttributeValue "discovery_select_ca_method" attributes with
  | .str "search" => (← getAttributeValueList "discovery_ca_name" attributes).mapM authorityData
  | .str "configstring" => do
      let configString ← getAttributeValue "discovery_config_string" attributes
      (caOfConfigStringValue configString).map fun ca => [ca.dict.map Prod.snd]
  | selectCaMethod => .error (unknownMethod selectCaMethod)

/-- `get_ca_from_attributes`. -/
def getCaFromAttributes (attributes : List Json) : Except PyError (List Json) := do
  match ← getAttributeValue "raprofile_select_ca_method" attributes with
  | .str "search" => authorityData (← getAttributeValue "raprofile_ca_name" attributes)
  | .str "configstring" => do
      let configString ← getAttributeValue "raprofile_config_string" attributes
      (caOfConfigStringValue configString).map fun ca => ca.dict.map Prod.snd
  | selectCaMethod => .error (unknownMethod selectCaMethod)

/-! ### The two readings -/

/-- An item of a request with its datum; there may be more in it. -/
structure ItemHolds (data : AttributeData) (item : Json) : Prop where
  exists_fields : ∃ fields, item = .dict fields ∧
    (Dict.get? fields "data" = some data.toJson ∨
      data = .missing ∧ Dict.get? fields "data" = none)

/-- An attribute of a request with its name and the data of its items; an empty content
may be absent or null. -/
structure Holds (a : Attribute) (attr : Json) : Prop where
  exists_fields : ∃ fields, attr = .dict fields ∧ Dict.get? fields "name" = some (.str a.name) ∧
    ((∃ items, Dict.get? fields "content" = some (.list items) ∧
        List.Forall₂ ItemHolds a.content items) ∨
      a.content = [] ∧ (Dict.get? fields "content" = none ∨
        Dict.get? fields "content" = some .null))

/-- An offered item holds its datum. -/
lemma itemHolds_toJson (item : OfferedItem) : ItemHolds item.data item.toJson := by
  refine ⟨_, rfl, .inl ?_⟩
  cases item with
  | mk reference data => cases reference <;> rfl

variable {attributes : List Attribute} {attrs : List Json} {a : Attribute} {attr : Json}
  {attributeName : String}

lemma ItemHolds.datum {data : AttributeData} {item : Json} (h : ItemHolds data item) :
    Dictionary.datum item = .ok data.toJson := by
  obtain ⟨fields, rfl, hdata | ⟨rfl, hnone⟩⟩ := h.exists_fields
  · simp [Dictionary.datum, get, hdata, bind, Except.bind, pure, Except.pure]
  · simp [Dictionary.datum, get, hnone, bind, Except.bind, pure, Except.pure, AttributeData.toJson]

/-- An attribute is passed over when it has another name or no items. -/
lemma Holds.contents (h : Holds a attr) (attributeName : String) :
    (∃ items, a.name = attributeName ∧ a.content ≠ [] ∧ List.Forall₂ ItemHolds a.content items ∧
      Dictionary.contents attributeName attr = .ok (some (.list items))) ∨
    (a.name ≠ attributeName ∨ a.content = []) ∧
      Dictionary.contents attributeName attr = .ok none := by
  obtain ⟨name, content⟩ := a
  obtain ⟨fields, rfl, hname, hcontent⟩ := h.exists_fields
  by_cases heq : name = attributeName
  · rcases hcontent with ⟨items, hget, hitems⟩ | ⟨hnil, hget | hget⟩
    · cases hitems with
      | nil =>
          exact .inr ⟨.inr rfl, by
            simp [Dictionary.contents, get, hname, heq, hget, truthy, bind, Except.bind, pure,
              Except.pure]⟩
      | cons hitem hitems =>
          refine .inl ⟨_, heq, List.cons_ne_nil _ _, .cons hitem hitems, ?_⟩
          simp [Dictionary.contents, get, hname, heq, hget, truthy, bind, Except.bind, pure,
            Except.pure]
    · exact .inr ⟨.inr hnil, by
        simp [Dictionary.contents, get, hname, heq, hget, truthy, bind, Except.bind, pure,
          Except.pure]⟩
    · exact .inr ⟨.inr hnil, by
        simp [Dictionary.contents, get, hname, heq, hget, truthy, bind, Except.bind, pure,
          Except.pure]⟩
  · exact .inr ⟨.inl heq, by
      simp [Dictionary.contents, get, hname, heq, bind, Except.bind, pure, Except.pure]⟩

/-- `get_attribute_value` finds the datum. -/
lemma getAttributeValue_of_holds (h : List.Forall₂ Holds attributes attrs) :
    getAttributeValue attributeName attrs =
      .ok (AdcsConnector.getAttributeValue attributeName attributes).toJson := by
  induction h with
  | nil => rfl
  | @cons a attr attributes attrs ha _ ih =>
      rw [getAttributeValue, AdcsConnector.getAttributeValue]
      rcases ha.contents attributeName with ⟨items, hname, hne, hitems, hread⟩ | ⟨hother, hread⟩ <;>
        rw [hread]
      · obtain ⟨name, content⟩ := a
        cases hitems with
        | nil => exact absurd rfl hne
        | cons hitem _ =>
            rw [if_pos hname]
            exact hitem.datum
      · refine ih.trans ?_
        split_ifs with hname
        · rw [hother.resolve_left (not_not.mpr hname)]
        · rfl

lemma mapM_datum {content : List AttributeData} {items : List Json}
    (h : List.Forall₂ ItemHolds content items) :
    items.mapM datum = .ok (content.map AttributeData.toJson) := by
  induction h with
  | nil => rfl
  | cons hitem _ ih =>
      rw [List.mapM_cons, hitem.datum, ih]
      rfl

/-- `get_attribute_value_list` finds the data. -/
lemma getAttributeValueList_of_holds (h : List.Forall₂ Holds attributes attrs) :
    getAttributeValueList attributeName attrs =
      .ok ((AdcsConnector.getAttributeValueList attributeName attributes).map
        AttributeData.toJson) := by
  induction h with
  | nil => rfl
  | @cons a attr attributes attrs ha _ ih =>
      rw [getAttributeValueList, AdcsConnector.getAttributeValueList]
      rcases ha.contents attributeName with ⟨items, hname, hne, hitems, hread⟩ | ⟨hother, hread⟩ <;>
        rw [hread]
      · rw [if_pos ⟨hname, hne⟩]
        exact mapM_datum hitems
      · rw [if_neg fun h => hother.elim (fun hname => hname h.1) h.2]
        exact ih

/-- `AuthorityData.from_dict` reads what the object has, or raises for the same key. -/
lemma authorityData_toJson (data : AttributeData) :
    authorityData data.toJson = data.authorityData.map fun ca => ca.dict.map Prod.snd := by
  cases data <;> rfl

lemma templateData_toJson (data : AttributeData) :
    templateData data.toJson = data.templateData.map fun t => t.dict.map Prod.snd := by
  cases data <;> rfl

lemma mapM_fromDict {β : Type} {read : Json → Except PyError (List Json)}
    {typed : AttributeData → Except PyError β} {fields : β → List Json}
    (h : ∀ data, read data.toJson = (typed data).map fields) (content : List AttributeData) :
    (content.map AttributeData.toJson).mapM read = (content.mapM typed).map (List.map fields) := by
  induction content with
  | nil => rfl
  | cons data content ih =>
      rw [List.map_cons, List.mapM_cons, List.mapM_cons, h, ih]
      cases typed data with
      | error e => rfl
      | ok b => cases content.mapM typed <;> rfl

/-- The ConfigString is read as the objects have it. -/
lemma caOfConfigStringValue_toJson {β γ : Type} (f : AuthorityData → β) (g : β → γ)
    {k : String → Except PyError β} (hk : ∀ s, (caOfConfigString s).map f = k s)
    (data : AttributeData) :
    (caOfConfigStringValue data.toJson).map (g ∘ f) = Except.map g (match data with
      | .missing | .str "" =>
          .error (.exception "ConfigString is required with selected CA Method: configstring")
      | .str configString => k configString
      | _ => .error (.attributeError "'dict' object has no attribute 'split'")) := by
  cases data with
  | str s =>
      by_cases hs : s = ""
      · subst hs
        rfl
      · simp only [AttributeData.toJson, caOfConfigStringValue, if_neg hs, ← hk]
        cases caOfConfigString s <;> rfl
  | _ => rfl

lemma unknownMethod_toJson (data : AttributeData) :
    unknownMethod data.toJson = concatError "Unknown CA Select Method: " data := by
  cases data <;> rfl

/-- A datum is the string `s` when it is sent as that string. -/
lemma toJson_eq_str_iff {data : AttributeData} {s : String} :
    data.toJson = .str s ↔ data = .str s := by
  cases data <;> simp [AttributeData.toJson]

/-- The authorities of a discovery are read as the objects have them. -/
lemma selectCas_of_holds (h : List.Forall₂ Holds attributes attrs) :
    selectCas attrs = (AdcsConnector.selectCas attributes).map
      (List.map fun ca => ca.dict.map Prod.snd) := by
  simp only [selectCas, AdcsConnector.selectCas, getAttributeValue_of_holds h,
    getAttributeValueList_of_holds h, bind, Except.bind]
  generalize AdcsConnector.getAttributeValue "discovery_select_ca_method" attributes = m
  by_cases hsearch : m = .str "search"
  · rw [hsearch, if_pos rfl]
    exact mapM_fromDict authorityData_toJson _
  · rw [if_neg hsearch]
    by_cases hconfig : m = .str "configstring"
    · rw [hconfig, if_pos rfl]
      exact caOfConfigStringValue_toJson (fun ca => [ca]) (List.map fun ca => ca.dict.map Prod.snd)
        (fun _ => rfl) _
    · rw [if_neg hconfig]
      split
      · next heq => exact absurd (toJson_eq_str_iff.mp heq) hsearch
      · next heq => exact absurd (toJson_eq_str_iff.mp heq) hconfig
      · rw [unknownMethod_toJson]
        rfl

/-- The authority of an RA profile is read as the objects have it. -/
lemma getCaFromAttributes_of_holds (h : List.Forall₂ Holds attributes attrs) :
    getCaFromAttributes attrs = (AdcsConnector.getCaFromAttributes attributes).map
      fun ca => ca.dict.map Prod.snd := by
  simp only [getCaFromAttributes, AdcsConnector.getCaFromAttributes, getAttributeValue_of_holds h,
    bind, Except.bind]
  generalize AdcsConnector.getAttributeValue "raprofile_select_ca_method" attributes = m
  by_cases hsearch : m = .str "search"
  · rw [hsearch, if_pos rfl]
    exact authorityData_toJson _
  · rw [if_neg hsearch]
    by_cases hconfig : m = .str "configstring"
    · rw [hconfig, if_pos rfl]
      exact caOfConfigStringValue_toJson id (fun ca => ca.dict.map Prod.snd)
        (fun _ => congrFun Except.map_id _) _
    · rw [if_neg hconfig]
      split
      · next heq => exact absurd (toJson_eq_str_iff.mp heq) hsearch
      · next heq => exact absurd (toJson_eq_str_iff.mp heq) hconfig
      · rw [unknownMethod_toJson]
        rfl

end Dictionary

/-- What the services read of a request of dictionaries and of one of objects. -/
structure SameReading (attributes : List Attribute) (attrs : List Json) : Prop where
  selectCas : Dictionary.selectCas attrs =
    (selectCas attributes).map (List.map fun ca => ca.dict.map Prod.snd)
  templates : (Dictionary.getAttributeValueList "discovery_template_name" attrs >>=
      List.mapM Dictionary.templateData) =
    ((getAttributeValueList "discovery_template_name" attributes).mapM
      AttributeData.templateData).map (List.map fun t => t.dict.map Prod.snd)
  authorityInstance : (Dictionary.getAttributeValue "discovery_authority_instance" attrs >>=
      Dictionary.authorityInstanceUuid) =
    (getAttributeValue "discovery_authority_instance" attributes).authorityInstanceUuid.map .str
  getCaFromAttributes : Dictionary.getCaFromAttributes attrs =
    (getCaFromAttributes attributes).map fun ca => ca.dict.map Prod.snd
  getTemplateFromAttributes : (Dictionary.getAttributeValue "raprofile_template_name" attrs >>=
      Dictionary.templateData) =
    (getTemplateFromAttributes attributes).map fun t => t.dict.map Prod.snd

/-- **The dictionaries are read as the objects they were made from.** -/
theorem reading_refines {attributes : List Attribute} {attrs : List Json}
    (h : List.Forall₂ Dictionary.Holds attributes attrs) : SameReading attributes attrs where
  selectCas := Dictionary.selectCas_of_holds h
  templates := by
    rw [Dictionary.getAttributeValueList_of_holds h]
    exact Dictionary.mapM_fromDict Dictionary.templateData_toJson _
  authorityInstance := by
    rw [Dictionary.getAttributeValue_of_holds h]
    cases getAttributeValue "discovery_authority_instance" attributes <;> rfl
  getCaFromAttributes := Dictionary.getCaFromAttributes_of_holds h
  getTemplateFromAttributes := by
    rw [Dictionary.getAttributeValue_of_holds h]
    exact Dictionary.templateData_toJson _

def offeredAuthority : AuthorityData :=
  ⟨"Test CA", "Test CA", "ca.example.local", "ca.example.local\\Test CA", "Enterprise",
    .bool true, .bool true, .bool true, .str "Running"⟩

/-- A discovery request as the core may send it. -/
def sampleAttrs : List Json := [
  .dict [("uuid", .str "ad5e1ca6-a018-43b3-8d36-17a1deb61cb8"),
    ("name", .str "discovery_select_ca_method"),
    ("content", .list [.dict [("data", .str "search")]])],
  .dict [("name", .str "discovery_ca_name"),
    ("content", .list [(OfferedItem.mk (some "Test CA") (.authority offeredAuthority)).toJson])],
  .dict [("name", .str "discovery_template_name"), ("content", .null)]]

theorem reading_refines_sample :
    SameReading [⟨"discovery_select_ca_method", [.str "search"]⟩,
      ⟨"discovery_ca_name", [.authority offeredAuthority]⟩, ⟨"discovery_template_name", []⟩]
      sampleAttrs := by
  refine reading_refines (.cons ⟨_, rfl, rfl, .inl ⟨_, rfl, .cons ⟨_, rfl, .inl rfl⟩ .nil⟩⟩
    (.cons ⟨_, rfl, rfl, .inl ⟨_, rfl, .cons ?_ .nil⟩⟩
      (.cons ⟨_, rfl, rfl, .inr ⟨rfl, .inr rfl⟩⟩ .nil)))
  exact Dictionary.itemHolds_toJson ⟨some "Test CA", .authority offeredAuthority⟩

/-! ### All authorities -/

/-- A host whose answers do not depend on what has been done before. -/
structure Host.Stateless (host : Host) : Prop where
  openShell : ∀ w w', host.openShell w = host.openShell w'
  powershell : ∀ w w' script, host.powershell w script = host.powershell w' script
  closeShell : ∀ w w', host.closeShell w = host.closeShell w'

namespace Host.Stateless

variable {host : Host}

lemma connect (h : host.Stateless) : SameResults (connect host) (connect host) := by
  intro w w'
  rw [AdcsConnector.connect, AdcsConnector.connect, h.openShell w w']
  cases host.openShell w' <;> rfl

lemma disconnect (h : host.Stateless) : SameResults (disconnect host) (disconnect host) := by
  intro w w'
  rw [AdcsConnector.disconnect, AdcsConnector.disconnect, h.closeShell w w']
  cases host.closeShell w' <;> rfl

lemma runPs (h : host.Stateless) (script : String) :
    SameResults (runPs host script) (runPs host script) := by
  have hexchange : SameResults (exchange host script) (exchange host script) := fun w w' => by
    simp only [exchange, Option.map_some, h.powershell w w']
  exact hexchange.bind fun result => (sameResults_lift _).bind fun _ =>
    (sameResults_lift _).bind fun _ => sameResults_pure result

variable (templates : List TemplateData) (issuedAfter : Option String) (pageSize : ℤ) (fuel : ℕ)

lemma fetchPage (h : host.Stateless) (ca : AuthorityData) (template : Option TemplateData)
    (page : ℕ) : SameResults (fetchPage host issuedAfter pageSize ca template page)
      (fetchPage host issuedAfter pageSize ca template page) :=
  (h.runPs _).bind fun _ => sameResults_lift _

lemma whileFull (h : host.Stateless) (ca : AuthorityData) (template : Option TemplateData)
    (page : ℕ) (certificates total : List ParseResult) :
    SameResults (whileFull host issuedAfter pageSize ca template fuel page certificates total)
      (whileFull host issuedAfter pageSize ca template fuel page certificates total) := by
  induction fuel generalizing page certificates total with
  | zero => exact sameResults_outOfFuel
  | succ fuel ih =>
      rw [AdcsConnector.whileFull]
      split_ifs
      · exact (h.fetchPage issuedAfter pageSize ca template _).bind fun _ => ih _ _ _
      · exact sameResults_pure _

/-- The loops do not depend on the state either. -/
lemma collectCas (h : host.Stateless) (cas : List AuthorityData) :
    SameResults (collectCas host templates issuedAfter pageSize fuel cas)
      (collectCas host templates issuedAfter pageSize fuel cas) :=
  SameResults.foldlM (fun ca _ total => SameResults.foldlM (fun template _ _ =>
    (h.fetchPage issuedAfter pageSize ca template 1).bind fun certificates =>
      h.whileFull issuedAfter pageSize fuel ca template 1 certificates _) total) []

end Host.Stateless

variable {env : Environment} {attributes : List Attribute}

section Append

variable {name name' : String} {content : List AttributeData}

lemma getAttributeValue_append (hne : name' ≠ name) :
    getAttributeValue name (attributes ++ [⟨name', content⟩]) =
      getAttributeValue name attributes := by
  induction attributes with
  | nil => simp [getAttributeValue, hne]
  | cons b attributes ih =>
      rw [List.cons_append, getAttributeValue, getAttributeValue, ih]

lemma getAttributeValueList_append (hne : name' ≠ name) :
    getAttributeValueList name (attributes ++ [⟨name', content⟩]) =
      getAttributeValueList name attributes := by
  induction attributes with
  | nil => simp [getAttributeValueList, hne]
  | cons b attributes ih =>
      rw [List.cons_append, getAttributeValueList, getAttributeValueList, ih]

/-- A content that is the first of its name. -/
lemma getAttributeValueList_append_self (hnil : getAttributeValueList name attributes = []) :
    getAttributeValueList name (attributes ++ [⟨name, content⟩]) = content := by
  induction attributes with
  | nil =>
      rw [List.nil_append, getAttributeValueList]
      by_cases h : content = [] <;> simp [h, getAttributeValueList]
  | cons b attributes ih =>
      rw [getAttributeValueList] at hnil
      rw [List.cons_append, getAttributeValueList]
      split_ifs at hnil ⊢ with h
      · exact absurd hnil h.2
      · exact ih hnil

end Append

/-- The request with all the authorities chosen that are listed. -/
def chooseAll (attributes : List Attribute) (listed : List (String × AuthorityData)) :
    List Attribute :=
  attributes ++ [⟨"discovery_ca_name", (caItems listed).map OfferedItem.data⟩]

lemma mapM_authorityData (listed : List (String × AuthorityData)) :
    ((caItems listed).map OfferedItem.data).mapM AttributeData.authorityData =
      .ok (listed.map Prod.snd) := by
  induction listed with
  | nil => rfl
  | cons ca listed ih =>
      rw [caItems, List.map_map] at ih ⊢
      rw [List.map_cons, List.mapM_cons, ih]
      rfl

/-- A listing of authorities is what the host answers. -/
lemma exists_of_getCas {uuid : String} {listed : List (String × AuthorityData)} {w w' : Wire}
    (h : Returns (getCas env uuid) w listed w') :
    ∃ host, createSession env uuid = .ok host ∧ ∃ result w₁ w₂,
      Returns (runPs host getCasScript) w₁ result w₂ ∧ ∃ cas,
        parseAuthorityData env.eval result = .ok cas ∧ listed = authorityContent cas := by
  simp only [getCas, returns_bind, returns_lift, returns_pure] at h
  obtain ⟨host, _, ⟨hsession, -⟩, _, w₁, -, result, w₂, hrun, _, _, -, cas, _, ⟨hparse, -⟩,
    hcontent, -⟩ := h
  exact ⟨host, hsession, result, w₁, w₂, hrun, cas, hparse, hcontent.symm⟩

/-- **To choose all authorities is to choose none.** When the listing callback has
returned the authorities of an instance, a search of that instance with all of them
chosen collects what the search with none chosen collects: the same authorities and
certificates, or the same exception, as long as the host answers by the request alone. -/
theorem select_all_offered {name uuid : String} {listed : List (String × AuthorityData)}
    {w w' : Wire} (hlisted : Returns (getCas env uuid) w listed w')
    (hstateless : ∀ authority host, env.authorityInstance uuid = .ok authority →
      env.session authority = .ok host → host.Stateless)
    (hinstance : getAttributeValue "discovery_authority_instance" attributes =
      .authorityInstance name uuid)
    (hmethod : getAttributeValue "discovery_select_ca_method" attributes = .str "search")
    (hnone : getAttributeValueList "discovery_ca_name" attributes = []) (fuel : ℕ) :
    SameResults (collectCertificates env fuel (chooseAll attributes listed))
      (collectCertificates env fuel attributes) := by
  obtain ⟨host, hsession, result, w₁, w₂, hrun, cas, hparse, rfl⟩ := exists_of_getCas hlisted
  obtain ⟨authority, hauthority, hhost⟩ := Except.bind_eq_ok_iff.mp hsession
  have hs := hstateless authority host hauthority hhost
  have hsnd : (authorityContent cas).map Prod.snd = cas := by
    rw [authorityContent, List.map_map]
    exact List.map_id cas
  have hall : selectCas (chooseAll attributes (authorityContent cas)) = .ok cas := by
    rw [selectCas, chooseAll, getAttributeValue_append (by decide), hmethod,
      getAttributeValueList_append_self hnone, if_pos rfl, mapM_authorityData, hsnd]
  have hempty : selectCas attributes = .ok [] := by
    rw [selectCas, hmethod, hnone]
    rfl
  -- whether the list is asked for or given, it is the one that was shown
  have hlist : SameResults (listCas env.eval host cas) (listCas env.eval host []) := by
    have hask : SameResults (listCas env.eval host []) (listCas env.eval host []) :=
      (hs.runPs _).bind fun _ => sameResults_lift _
    by_cases hcas : cas = []
    · rw [hcas]
      exact hask
    · intro s t
      obtain ⟨hanswer, hcheck, -⟩ := returns_runPs.mp hrun
      rw [hs.powershell w₁ t] at hanswer
      have hrun' := returns_runPs.mpr ⟨hanswer, hcheck, rfl⟩
      rw [listCas, if_neg hcas, listCas, if_pos rfl, hrun'.run_bind, hparse]
      rfl
  rw [collectCertificates, collectCertificates, inSession, inSession, hall, hempty, chooseAll,
    getAttributeValue_append (by decide), hinstance, getAttributeValueList_append (by decide),
    getAttributeValue_append (by decide)]
  simp only [AttributeData.authorityInstanceUuid, hauthority, hhost, lift_ok, pure_bind]
  exact (sameResults_lift _).bind fun templates => hs.connect.bind fun _ => hlist.bind fun cas =>
    (hs.collectCas templates _ _ fuel cas).bind fun _ => hs.disconnect.bind fun _ =>
      sameResults_pure _

def listingText : String := "DisplayName : CA\nServiceStatus : Running"

/-- A host that answers every script with one list of authorities. -/
def listingHost : Host where
  debug := false
  openShell _ := .ok ()
  powershell _ _ := .ok (printedText listingText)
  closeShell _ := .ok ()

def listingEnvironment : Environment where
  AuthorityInstance := Unit
  authorityInstance _ := .ok ()
  session _ := .ok listingHost
  eval frame _ := .ok (frame.keep .none)
  searchPageSize := 500

def listedAuthority : AuthorityData :=
  ⟨"", "CA", "", "", "", .str "", .str "", .str "", .str "Running"⟩

lemma parse_listingText : parseAuthorityData listingEnvironment.eval (printedText listingText) =
    .ok [listedAuthority] := by
  have hlines : lines (strip listingText.toList) =
      ["DisplayName : CA".toList, "ServiceStatus : Running".toList] := by decide
  rw [parseAuthorityData, dumpLines, printedText_stdOut, decode_toUTF8]
  simp only [bind, Except.bind, pure, Except.pure, Except.map, hlines]
  rfl

/-- The one authority that is listed is chosen. -/
theorem select_all_offered_sample : ∃ listed w',
    Returns (getCas listingEnvironment "7") ⟨[], 0⟩ listed w' ∧ listed = [("CA", listedAuthority)] ∧
    SameResults
      (collectCertificates listingEnvironment 1 (chooseAll
        [⟨"discovery_authority_instance", [.authorityInstance "ADCS" "7"]⟩,
          ⟨"discovery_select_ca_method", [.str "search"]⟩] listed))
      (collectCertificates listingEnvironment 1
        [⟨"discovery_authority_instance", [.authorityInstance "ADCS" "7"]⟩,
          ⟨"discovery_select_ca_method", [.str "search"]⟩]) := by
  have hlisted : Returns (getCas listingEnvironment "7") ⟨[], 0⟩ [("CA", listedAuthority)]
      ⟨[getCasScript], 0⟩ := by
    simp only [getCas, returns_bind, returns_lift, returns_pure, returns_runPs]
    exact ⟨listingHost, _, ⟨rfl, rfl⟩, (), _, rfl, printedText listingText, _,
      ⟨rfl, .of_decode _ (decode_toUTF8 _) rfl, rfl⟩, (), _, rfl, [listedAuthority], _,
      ⟨parse_listingText, rfl⟩, rfl, rfl⟩
  refine ⟨_, _, hlisted, rfl, select_all_offered hlisted (fun _ host _ hhost => ?_) rfl rfl rfl 1⟩
  obtain rfl : listingHost = host := Except.ok.inj hhost
  exact ⟨fun _ _ => rfl, fun _ _ _ => rfl, fun _ _ => rfl⟩

end AdcsConnector
