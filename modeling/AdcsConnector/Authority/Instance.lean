/-
The authority instances and what the services write into them:
`services/authority_instance.py`, with `merge_attributes` of
`utils/attribute_definition_utils.py`.

* `AuthorityInstance`: a row, or the object of a row that is being made;
* `mergeAttributes`: the attribute definitions with the contents requested;
* `updateAuthorityInstance`: what an update assigns to an object before it
  verifies the connection and saves; the key, the name and the kind stay
  (`SameKey.updateAuthorityInstance`);
* `Columns`, `columnsOf`: what the columns of the table write for the object; an
  object whose fields have the types of their columns is written as it is
  (`columnsOf_eq_self`).
-/
import Std.Data.String.ToInt
import AdcsConnector.Models
import AdcsConnector.Library.Dict
import AdcsConnector.Library.Program

namespace AdcsConnector

namespace Authority

/-! ### Values and attributes -/

/-- An attribute of a request, or stored with an instance: its content are the
`data` of the items, `null` where an item has none. -/
structure InstanceAttribute where
  name : String
  content : Option (List Json)

/-- `get_attribute_value`. -/
def getAttributeValue (attributeName : String) : List InstanceAttribute → Json
  | [] => .str ""
  | attr :: attributes =>
      if attr.name = attributeName then
        match attr.content with
        | some (data :: _) => data
        | _ => getAttributeValue attributeName attributes
      else getAttributeValue attributeName attributes

/-- The exceptions of the services, with the values in their texts. -/
inductive AuthorityError where
  /-- `AuthorityException`: an instance of this name exists already -/
  | nameExists (name : String)
  /-- `ValueError`: unrecognized authority kind -/
  | unrecognizedKind (kind : String)
  /-- `ValueError`: unrecognized protocol -/
  | unrecognizedProtocol (winrmTransport : Json)
  | keyError (key : String)

/-- `validate_authority_kind`. -/
def validateAuthorityKind (kind : String) : Except AuthorityError Unit :=
  if kind = "PyADCS-WinRM" then .ok () else .error (.unrecognizedKind kind)

/-- `get_all_authority_attributes_list`, the names of the definitions. -/
def getAllAuthorityAttributesList (kind : String) (winrmTransport : Json) :
    Except AuthorityError (List String) := do
  validateAuthorityKind kind
  match winrmTransport with
  | .str "credssp" =>
      return ["authority_adcs_info", "authority_credential_type", "authority_credential",
        "authority_server_address", "authority_use_https", "authority_winrm_port",
        "authority_winrm_transport", "authority_winrm_transport_config"]
  | _ => .error (.unrecognizedProtocol winrmTransport)

/-- `merge_attributes`: the definitions that are requested, with the content of
the last attribute requested under their name. -/
def mergeAttributes (requestAttributes : List InstanceAttribute) :
    List String → Except AuthorityError (List InstanceAttribute)
  | [] => .ok []
  | name :: originalAttributes =>
      match Dict.get? (Dict.ofPairs (requestAttributes.map fun val => (val.name, val))) name with
      | none => mergeAttributes requestAttributes originalAttributes
      | some attr =>
          match attr.content with
          | none => .error (.keyError "content")
          | some content => do
              let mergedAttributes ← mergeAttributes requestAttributes originalAttributes
              return ⟨name, some content⟩ :: mergedAttributes

/-! ### Instances -/

/-- An authority instance; an object that was never saved has no id. -/
structure AuthorityInstance where
  id : Option ℕ
  uuid : UUID
  name : String
  address : Json
  https : Json
  port : Json
  attributes : List InstanceAttribute
  credential : Json
  kind : String
  transport : Json

/-- The request of a create or an update; an update reads the attributes only. -/
structure AuthorityRequest where
  name : String
  kind : String
  attributes : List InstanceAttribute

/-- The object that `create_authority_instance` starts from. -/
def newInstance (uuid : UUID) (request : AuthorityRequest) : AuthorityInstance where
  id := none
  uuid := uuid
  name := request.name
  address := .str ""
  https := .bool false
  port := .null
  attributes := []
  credential := .null
  kind := request.kind
  transport := .str "credssp"

/-- `update_authority_instance`, up to `verify_connection`. -/
def updateAuthorityInstance (request : AuthorityRequest) (authorityInstance : AuthorityInstance) :
    Except AuthorityError AuthorityInstance := do
  validateAuthorityKind authorityInstance.kind
  let transport := getAttributeValue "authority_winrm_transport" request.attributes
  let originalAttributes ← getAllAuthorityAttributesList authorityInstance.kind transport
  let attributes ← mergeAttributes request.attributes originalAttributes
  return { authorityInstance with
    transport := transport
    attributes := attributes
    address := getAttributeValue "authority_server_address" attributes
    https := getAttributeValue "authority_use_https" attributes
    port := getAttributeValue "authority_winrm_port" attributes
    credential := getAttributeValue "authority_credential" attributes }

/-- Two objects of one row: no field that an update leaves alone differs. -/
structure SameKey (a b : AuthorityInstance) : Prop where
  id : a.id = b.id
  uuid : a.uuid = b.uuid
  name : a.name = b.name

lemma SameKey.refl (a : AuthorityInstance) : SameKey a a := ⟨rfl, rfl, rfl⟩

lemma SameKey.trans {a b c : AuthorityInstance} (h : SameKey a b) (h' : SameKey b c) :
    SameKey a c :=
  ⟨h.id.trans h'.id, h.uuid.trans h'.uuid, h.name.trans h'.name⟩

/-- An update changes neither the key nor the name. -/
lemma SameKey.updateAuthorityInstance {request : AuthorityRequest} {a b : AuthorityInstance}
    (h : updateAuthorityInstance request a = .ok b) : SameKey b a := by
  simp only [Authority.updateAuthorityInstance, Except.bind_eq_ok_iff] at h
  obtain ⟨_, -, _, -, _, -, ⟨⟩⟩ := h
  exact ⟨rfl, rfl, rfl⟩

/-! ### Columns -/

/-- The integer that a boolean or a number is in Python, `integer` being the one that
the text of a number is. -/
def intValue (integer : String → Option ℤ) : Json → Option ℤ
  | .bool b => some b.toNat
  | .number text => integer text
  | _ => none

/-- What Django writes into a column for a value, by the type of the column, or the
exception it raises; with what Python has for `==` and for the integer of a number.
A column writes values of its own type only, and a value that is equal to one of these
as that one. -/
structure Columns where
  integer : String → Option ℤ
  Equal : Json → Json → Prop
  charField (maxLength : ℕ) : Json → Except PyError Json
  booleanField : Json → Except PyError Json
  integerField : Json → Except PyError Json
  integer_toString : ∀ n : ℤ, integer (toString n) = some n
  equal_comm : ∀ {v w}, Equal v w → Equal w v
  equal_str : ∀ {t v}, Equal (.str t) v ↔ v = .str t
  equal_int : ∀ {v w n}, intValue integer v = some n → (Equal v w ↔ intValue integer w = some n)
  charField_ok : ∀ {maxLength v w}, charField maxLength v = .ok w → ∃ t, w = .str t
  charField_str : ∀ {maxLength t w}, charField maxLength (.str t) = .ok w → w = .str t
  booleanField_ok : ∀ {v w}, booleanField v = .ok w → ∃ b, w = .bool b
  booleanField_int : ∀ {v w} {b : Bool}, intValue integer v = some b.toNat →
    booleanField v = .ok w → w = .bool b
  integerField_ok : ∀ {v w}, integerField v = .ok w → ∃ n : ℤ, w = .number (toString n)
  integerField_int : ∀ {v w n}, intValue integer v = some n → integerField v = .ok w →
    w = .number (toString n)

/-- The row that is written for an object; its JSON columns take every value. -/
def columnsOf (c : Columns) (a : AuthorityInstance) : Except PyError AuthorityInstance := do
  let _ ← c.charField 255 (.str a.name)
  let address ← c.charField 255 a.address
  let https ← c.booleanField a.https
  let port ← c.integerField a.port
  let _ ← c.charField 100 (.str a.kind)
  let transport ← c.charField 100 a.transport
  return { a with address := address, https := https, port := port, transport := transport }

variable {c : Columns} {a row : AuthorityInstance}

/-- The row and its object, field by field. -/
lemma columnsOf_cases (h : columnsOf c a = .ok row) :
    row = { a with
      address := row.address
      https := row.https
      port := row.port
      transport := row.transport } ∧
    c.charField 255 a.address = .ok row.address ∧ c.booleanField a.https = .ok row.https ∧
    c.integerField a.port = .ok row.port ∧ c.charField 100 a.transport = .ok row.transport := by
  simp only [columnsOf, Except.bind_eq_ok_iff] at h
  obtain ⟨_, -, address, haddress, https, hhttps, port, hport, _, -, transport, htransport, ⟨⟩⟩ := h
  exact ⟨rfl, haddress, hhttps, hport, htransport⟩

/-- The key of the row written is the one of the object. -/
lemma SameKey.columnsOf (h : columnsOf c a = .ok row) : SameKey row a := by
  rw [(columnsOf_cases h).1]
  exact ⟨rfl, rfl, rfl⟩

lemma kind_of_columnsOf (h : columnsOf c a = .ok row) : row.kind = a.kind := by
  rw [(columnsOf_cases h).1]

/-- The fields of an object have the types of their columns. -/
structure OwnTypes (a : AuthorityInstance) : Prop where
  address : ∃ t, a.address = .str t
  https : ∃ b, a.https = .bool b
  port : ∃ n : ℤ, a.port = .number (toString n)
  transport : ∃ t, a.transport = .str t

/-- Such an object is written as it is. -/
lemma columnsOf_eq_self (ha : OwnTypes a) (h : columnsOf c a = .ok row) : row = a := by
  obtain ⟨hrow, haddress, hhttps, hport, htransport⟩ := columnsOf_cases h
  obtain ⟨t, ht⟩ := ha.address
  obtain ⟨b, hb⟩ := ha.https
  obtain ⟨n, hn⟩ := ha.port
  obtain ⟨t', ht'⟩ := ha.transport
  rw [ht] at haddress
  rw [hb] at hhttps
  rw [hn] at hport
  rw [ht'] at htransport
  rw [hrow, c.charField_str haddress, c.booleanField_int rfl hhttps,
    c.integerField_int (show intValue c.integer (.number (toString n)) = some n from
      c.integer_toString n) hport, c.charField_str htransport, ← ht, ← hb, ← hn, ← ht']

/-- What a boolean column takes a value for. -/
def sampleTruth : Json → Option Bool
  | .str "t" | .str "True" | .str "1" => some true
  | .str "f" | .str "False" | .str "0" => some false
  | v =>
      if intValue String.toInt? v = some 1 then some true
      else if intValue String.toInt? v = some 0 then some false
      else none

/-- What an integer column takes a value for; a number with a fraction is refused. -/
def sampleInt : Json → Option ℤ
  | .str text => text.toInt?
  | v => intValue String.toInt? v

/-- The columns, on the values that have no fraction. -/
def sampleColumns : Columns where
  integer := String.toInt?
  Equal v w := v = w ∨ ∃ n, intValue String.toInt? v = some n ∧ intValue String.toInt? w = some n
  charField maxLength
    | .str t => if t.length ≤ maxLength then .ok (.str t) else
        .error (.databaseError "value too long")
    | .bool b => .ok (.str (if b then "True" else "False"))
    | .number text => .ok (.str text)
    | _ => .error (.databaseError "null value")
  booleanField v :=
    match sampleTruth v with
    | some b => .ok (.bool b)
    | none => .error (.validation "value must be either True or False.")
  integerField v :=
    match sampleInt v with
    | some n => .ok (.number (toString n))
    | none => .error (.valueError "expected a number")
  integer_toString n := Int.toInt?_repr n
  equal_comm := fun h => h.imp Eq.symm fun ⟨n, hv, hw⟩ => ⟨n, hw, hv⟩
  equal_str := by
    refine ⟨fun h => ?_, fun h => .inl h.symm⟩
    rcases h with rfl | ⟨n, ht, -⟩
    · rfl
    · cases ht
  equal_int := fun {v w n} hv => by
    refine ⟨fun h => ?_, fun hw => .inr ⟨n, hv, hw⟩⟩
    rcases h with rfl | ⟨m, hv', hw⟩
    · exact hv
    · rwa [Option.some.inj (hv.symm.trans hv')]
  charField_ok := by
    intro maxLength v w h
    cases v <;> simp only [reduceCtorEq] at h
    case str t =>
      split_ifs at h
      exact ⟨t, (Except.ok.inj h).symm⟩
    all_goals exact ⟨_, (Except.ok.inj h).symm⟩
  charField_str := by
    intro maxLength t w h
    simp only at h
    split_ifs at h
    exact (Except.ok.inj h).symm
  booleanField_ok := by
    intro v w h
    split at h <;> cases h
    exact ⟨_, rfl⟩
  booleanField_int := by
    intro v w b hv h
    have htruth : sampleTruth v = some b := by
      cases v <;> cases b <;> simp_all [sampleTruth, intValue]
    rw [htruth] at h
    exact (Except.ok.inj h).symm
  integerField_ok := by
    intro v w h
    split at h <;> cases h
    exact ⟨_, rfl⟩
  integerField_int := by
    intro v w n hv h
    have hint : sampleInt v = some n := by
      cases v <;> first | exact hv | cases hv
    rw [hint] at h
    exact (Except.ok.inj h).symm

/-! ### A sample -/

def sampleInstance : AuthorityInstance where
  id := some 1
  uuid := 7
  name := "ADCS"
  address := .str "adcs.example.com"
  https := .bool false
  port := .number "5985"
  attributes := []
  credential := .null
  kind := "PyADCS-WinRM"
  transport := .str "credssp"

/-- An attribute of a credential. -/
def credentialAttribute (name value : String) : Json :=
  .dict [("name", .str name), ("content", .list [.dict [("data", .str value)]])]

def sampleCredential : Json :=
  .dict [("uuid", .str "42"), ("name", .str "svc"),
    ("attributes", .list [credentialAttribute "username" "svc@example.com",
      credentialAttribute "password" "secret"])]

/-- A request with all that a session is made of. -/
def sampleRequest : AuthorityRequest where
  name := "ADCS"
  kind := "PyADCS-WinRM"
  attributes := [⟨"authority_credential", some [sampleCredential]⟩,
    ⟨"authority_server_address", some [.str "ca.example.com"]⟩,
    ⟨"authority_use_https", some [.bool true]⟩,
    ⟨"authority_winrm_port", some [.number "5986"]⟩,
    ⟨"authority_winrm_transport", some [.str "credssp"]⟩]

/-- What the request makes of the instance. -/
def sampleUpdated : AuthorityInstance := { sampleInstance with
  address := .str "ca.example.com"
  https := .bool true
  port := .number "5986"
  attributes := sampleRequest.attributes
  credential := sampleCredential }

lemma updateAuthorityInstance_sample :
    updateAuthorityInstance sampleRequest sampleInstance = .ok sampleUpdated := rfl

/-- The columns write the object as it is, and so under another key and name. -/
lemma columnsOf_sample_key (id : Option ℕ) (uuid : UUID) {name : String} (h : name.length ≤ 255) :
    columnsOf sampleColumns { sampleUpdated with id := id, uuid := uuid, name := name } =
      .ok { sampleUpdated with id := id, uuid := uuid, name := name } := by
  have hstr : ∀ {t : String} {n : ℕ}, t.length ≤ n →
      sampleColumns.charField n (.str t) = .ok (.str t) := fun h => if_pos h
  have hport : sampleColumns.integerField (.number "5986") = .ok (.number "5986") := by
    simp only [sampleColumns, sampleInt, intValue,
      show "5986".toInt? = some 5986 from Int.toInt?_repr 5986]
    rfl
  simp only [columnsOf, sampleUpdated, sampleInstance, hstr h,
    hstr (show "ca.example.com".length ≤ 255 by decide),
    hstr (show "PyADCS-WinRM".length ≤ 100 by decide),
    hstr (show "credssp".length ≤ 100 by decide), hport,
    show sampleColumns.booleanField (.bool true) = .ok (.bool true) from rfl]
  rfl

lemma columnsOf_sample : columnsOf sampleColumns sampleUpdated = .ok sampleUpdated :=
  columnsOf_sample_key (some 1) 7 (show "ADCS".length ≤ 255 by decide)

end Authority

end AdcsConnector
