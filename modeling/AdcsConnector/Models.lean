/-
The data model of the connector: the objects its services exchange and the
tables of its store.

* `certificateFingerprint`: the hexadecimal SHA-256 of the exact base64 string,
  the key of the shared `Certificate` table; it fits the 64 characters of its
  column (`certificateFingerprint_length`);
* `DiscoveryStatus`, `StatusValue`: the enumeration of the discovery states and
  the Python values a status is compared with;
* `AuthorityData`, `TemplateData`, `ParseResult`, `IdentifiedCertificate`: what the
  dump parser returns;
* `MetaAttribute` and the metadata attributes built by the services;
* `Store`: the four tables a discovery or a cleanup sweep touches, and
  `Store.Consistent`, the constraints the database and the services keep.
-/
import AdcsConnector.Library.Sha256
import Mathlib.Data.List.Nodup

namespace AdcsConnector

/-! ### Fingerprints -/

/-- `base64content.encode("utf-8")`. -/
def utf8 (s : String) : List UInt8 := s.toList.flatMap String.utf8EncodeChar

/-- SHA-256 hex of the exact base64 certificate string, with no decoding or
normalization. -/
def certificateFingerprint (base64content : String) : String :=
  Sha256.hexdigest (Sha256.sha256 (utf8 base64content))

/-- A fingerprint fills its `CharField(max_length=64)`. -/
lemma certificateFingerprint_length (base64content : String) :
    (certificateFingerprint base64content).length = 64 := by
  rw [certificateFingerprint, Sha256.hexdigest_length, Sha256.sha256_length]

/-! ### Errors and values -/

/-- The exceptions the modelled services raise, with their texts. -/
inductive PyError where
  | exception (message : String)
  | valueError (message : String)
  | keyError (key : String)
  | indexError
  | databaseError (message : String)
  | unicodeDecodeError
  | typeError (message : String)
  | attributeError (message : String)
  | syntaxError
  | alreadyExist (objectType identifier : String)
  | notFound (message : String)
  | validation (message : String)
  | authorityException (message : String)
  | remotingException (message : String)
  | winRMExecution (statusCode : ℤ) (stdErr : String)
  | transport (message : String)
  deriving DecidableEq

/-- The Python values a field may hold that is not always a string. -/
inductive PyValue where
  | none
  | bool (b : Bool)
  | int (n : ℤ)
  | str (s : String)
  deriving DecidableEq

/-- A JSON value; a number is kept as it is written. -/
inductive Json where
  | null
  | bool (b : Bool)
  | number (text : String)
  | str (s : String)
  | list (items : List Json)
  | dict (fields : List (String × Json))

/-! ### Discovery states -/

/-- `utils/discovery_status.py`: a plain `Enum`, not a subclass of `str`. -/
inductive DiscoveryStatus where
  | inProgress
  | failed
  | completed
  | warning
  deriving DecidableEq

namespace DiscoveryStatus

/-- The string stored for a status. -/
def value : DiscoveryStatus → String
  | inProgress => "inProgress"
  | failed => "failed"
  | completed => "completed"
  | warning => "warning"

/-- The stored strings tell the states apart. -/
lemma value_injective : Function.Injective value := by
  intro a b h
  cases a <;> cases b <;> first | rfl | exact absurd h (by decide)

end DiscoveryStatus

/-- The Python values a status field is compared with: the stored `str`, or a
member of the enumeration. `==` between the two kinds is always `False`. -/
inductive StatusValue where
  | str (s : String)
  | member (m : DiscoveryStatus)
  deriving DecidableEq

/-! ### The objects of the dump parser -/

/-- A certification authority, as listed by the CA host or named in a request. -/
structure AuthorityData where
  name : String
  displayName : String
  computerName : String
  configString : String
  caType : String
  isEnterprise : PyValue
  isRoot : PyValue
  isAccessible : PyValue
  serviceStatus : PyValue
  deriving DecidableEq

/-- A certificate template. -/
structure TemplateData where
  name : String
  displayName : String
  schemaVersion : String
  version : String
  oid : String
  deriving DecidableEq

/-- One certificate of a dump: the template of its record and its base64
string. -/
structure ParseResult where
  template : String
  certificate : String
  deriving DecidableEq

/-- A certificate of a certification authority, found by its serial number. -/
structure IdentifiedCertificate where
  certificateTemplate : String
  serialNumber : String
  configString : String
  deriving DecidableEq

/-! ### Metadata attributes -/

/-- One item of an attribute's content. -/
structure AttributeContent where
  reference : String
  data : String
  deriving DecidableEq

/-- `get_metadata_attribute_properties`. -/
structure AttributeProperties where
  label : String
  visible : Bool
  group : Option String
  global : Bool
  deriving DecidableEq

/-- `build_attribute`, for a metadata attribute: the callback and the
constraints are `None` there. -/
structure MetaAttribute where
  name : String
  uuid : String
  type : String
  contentType : String
  description : String
  properties : AttributeProperties
  content : List AttributeContent
  deriving DecidableEq

/-- The shape the three metadata attributes share: a visible string whose
reference is the datum itself. -/
def metadataAttribute (name uuid label description datum : String) : MetaAttribute where
  name := name
  uuid := uuid
  type := "meta"
  contentType := "string"
  description := description
  properties := { label := label, visible := true, group := none, global := false }
  content := [{ reference := datum, data := datum }]

/-- `get_ca_name_metadata_attribute`. -/
def caNameMetadataAttribute (caName : String) : MetaAttribute :=
  metadataAttribute "metadata_ca_name" "8dbc74f1-32e7-427a-9764-046b6400c054" "CA Name"
    "CA name" caName

/-- `get_template_name_metadata_attribute`. -/
def templateNameMetadataAttribute (templateName : String) : MetaAttribute :=
  metadataAttribute "metadata_template_name" "a1a9946c-190e-4e6d-9090-718ec9c99625"
    "Certificate Template Name" "Certificate template name" templateName

/-- `get_failed_reason_metadata_attribute`. -/
def failedReasonMetadataAttribute (failedReason : String) : MetaAttribute :=
  metadataAttribute "metadata_failed_reason" "d568c856-6b18-46a7-863f-30032d433d97"
    "Failed Reason" "Failed reason" failedReason

/-- The datum carried under an attribute name: the first item of the content
of the first attribute of that name. -/
def metadataValue (name : String) (attributes : List MetaAttribute) : Option String :=
  (attributes.find? fun a => a.name = name).bind fun a => a.content.head?.map (·.data)

/-! ### The tables -/

/-- The value of a `UUIDField`, ordered as PostgreSQL orders it. -/
abbrev UUID := ℕ

/-- `models/certificate.py`. -/
structure Certificate where
  id : ℕ
  fingerprint : String
  base64content : String
  deriving DecidableEq

/-- `models/discovery_history.py`. -/
structure DiscoveryHistory where
  id : ℕ
  uuid : UUID
  name : String
  status : String
  metadata : Option (List MetaAttribute)
  deriving DecidableEq

/-- `models/discovery_certificate.py`: the link of a discovery to a shared
certificate. -/
structure DiscoveryCertificate where
  id : ℕ
  uuid : UUID
  metadata : Option (List MetaAttribute)
  discoveryId : ℕ
  certificateId : ℕ
  deriving DecidableEq

/-- `models/certificate_cleanup_state.py`; times are in seconds. -/
structure CertificateCleanupState where
  id : ℕ
  lastRunAt : Option ℤ
  deriving DecidableEq

/-- The committed contents of the tables. -/
structure Store where
  certificate : List Certificate
  discoveryHistory : List DiscoveryHistory
  discoveryCertificate : List DiscoveryCertificate
  certificateCleanupState : List CertificateCleanupState
  deriving DecidableEq

namespace Store

/-- `DiscoveryCertificate.objects.filter(discovery_id=d)`. -/
def linksOf (s : Store) (d : ℕ) : List DiscoveryCertificate :=
  s.discoveryCertificate.filter fun l => l.discoveryId = d

/-- No link refers to the certificate. -/
def Orphan (s : Store) (certificateId : ℕ) : Prop :=
  ∀ l ∈ s.discoveryCertificate, l.certificateId ≠ certificateId

instance (s : Store) (c : ℕ) : Decidable (s.Orphan c) :=
  inferInstanceAs (Decidable (∀ l ∈ s.discoveryCertificate, l.certificateId ≠ c))

/-- A consistent store: the primary keys, the unique index on the fingerprint,
fingerprints that are those of the contents, distinct discovery uuids, and both
foreign keys of a link. -/
structure Consistent (s : Store) : Prop where
  certificateId : (s.certificate.map (·.id)).Nodup
  linkId : (s.discoveryCertificate.map (·.id)).Nodup
  fingerprint : (s.certificate.map (·.fingerprint)).Nodup
  fingerprint_eq : ∀ c ∈ s.certificate, c.fingerprint = certificateFingerprint c.base64content
  historyId : (s.discoveryHistory.map (·.id)).Nodup
  historyUuid : (s.discoveryHistory.map (·.uuid)).Nodup
  certificateFk : ∀ l ∈ s.discoveryCertificate, ∃ c ∈ s.certificate, c.id = l.certificateId
  historyFk : ∀ l ∈ s.discoveryCertificate, ∃ h ∈ s.discoveryHistory, h.id = l.discoveryId

end Store

end AdcsConnector
