/-
`utils/crmf.py`, `utils/cmc.py`, `utils/adcs_asn1.py` and the classes of
`asn1crypto` under them: the messages of a certificate request, by the fields
that `create_cms` reads or sets.

* `CertReqMsg`: the request as it comes, a CRMF message;
* `CertificationRequestNullSigned`, `PKIData`, `ContentInfo`: the request as it
  goes, PKCS#10 in CMC in CMS;
* `Asn1`, `Asn1.Laws`: what `create_cms` has of `asn1crypto`, and what it relies
  on.

A `SEQUENCE OF` is a list and a `SET OF` a multiset. The subject names and the
public keys are only passed on, and stay of any type.
-/
import AdcsConnector.Models
import AdcsConnector.Library.Der

namespace AdcsConnector.Cms

open Der

/-! ### Object identifiers -/

/-- `microsoft_enroll_certtype`. -/
def microsoftEnrollCerttype : Oid := ⟨1, 3, [6, 1, 4, 1, 311, 20, 2], by decide, by decide⟩

/-- The certificate template extension that names a template by its identifier. -/
def microsoftCertificateTemplate : Oid := ⟨1, 3, [6, 1, 4, 1, 311, 21, 7], by decide, by decide⟩

/-- `key_usage` and `subject_alt_name`. -/
def keyUsage : Oid := ⟨2, 5, [29, 15], by decide, by decide⟩

def subjectAltName : Oid := ⟨2, 5, [29, 17], by decide, by decide⟩

/-- `common_name`. -/
def commonNameId : Oid := ⟨2, 5, [4, 3], by decide, by decide⟩

/-- The content type of `PKIData`. -/
def cctPKIData : Oid := ⟨1, 3, [6, 1, 5, 5, 7, 12, 2], by decide, by decide⟩

/-- `sha256`. -/
def sha256Id : Oid := ⟨2, 16, [840, 1, 101, 3, 4, 2, 1], by decide, by decide⟩

/-- The signature mechanism without a signature. -/
def noSignature : Oid := ⟨1, 3, [6, 1, 5, 5, 7, 6, 2], by decide, by decide⟩

/-! ### Extensions -/

/-- `Extension`, by its values: `critical` is `FALSE` where it is omitted. -/
structure Extension where
  extnId : Oid
  critical : Bool
  extnValue : List UInt8

/-- An `Extension` as it is loaded, whose `critical` may be omitted. -/
structure LoadedExtension where
  extnId : Oid
  critical : Option Bool
  extnValue : List UInt8
  deriving DecidableEq

/-- The values that are read of a loaded extension. -/
def LoadedExtension.values (ext : LoadedExtension) : Extension :=
  ⟨ext.extnId, ext.critical.getD false, ext.extnValue⟩

/-- `CertificateTemplateOid`, with the two optional versions set. -/
structure CertificateTemplateOid where
  templateID : Oid
  templateMajorVersion : ℤ
  templateMinorVersion : ℤ

/-! ### The request that comes -/

variable (Name PublicKeyInfo : Type)

structure CertTemplate where
  subject : Option Name
  publicKey : Option PublicKeyInfo
  extensions : Option (List LoadedExtension)
  deriving DecidableEq

structure CertRequest where
  certTemplate : CertTemplate Name PublicKeyInfo
  deriving DecidableEq

structure CertReqMsg where
  certReq : CertRequest Name PublicKeyInfo
  deriving DecidableEq

/-! ### The request that goes -/

/-- `DigestAlgorithm` and `SignedDigestAlgorithm`, whose parameters are `NULL`
where they are not omitted. -/
structure Algorithm where
  algorithm : Oid
  parameters : Option Unit

/-- `CRIAttribute`, by the type that is used. -/
inductive CRIAttribute where
  | extensionRequest (values : Multiset (List Extension))

def CRIAttribute.type : CRIAttribute → Oid
  | .extensionRequest _ => ⟨1, 2, [840, 113549, 1, 9, 14], by decide, by decide⟩

structure CertificationRequestInfo where
  version : ℤ
  subject : Name
  subjectPkInfo : PublicKeyInfo
  attributes : Multiset CRIAttribute

structure CertificationRequestNullSigned where
  certificationRequestInfo : CertificationRequestInfo Name PublicKeyInfo
  signatureAlgorithm : Algorithm
  signature : List UInt8

structure TaggedCertificationRequest where
  bodyPartID : ℤ
  certificationRequest : CertificationRequestNullSigned Name PublicKeyInfo

/-- `TaggedRequest`, by the alternative that is used. -/
inductive TaggedRequest where
  | tcr (tcr : TaggedCertificationRequest Name PublicKeyInfo)

/-- `PKIData`, with the optional sequences set. Their elements are neither made
nor read. -/
structure PKIData where
  controlSequence : List Any
  reqSequence : List (TaggedRequest Name PublicKeyInfo)
  cmsSequence : List Any
  otherMsgSequence : List Any

structure EncapsulatedContentInfo where
  contentType : Oid
  content : List UInt8

/-- `CMSAttribute`, by the types that are used. -/
inductive CMSAttribute where
  | contentType (values : Multiset Oid)
  | messageDigest (values : Multiset (List UInt8))

def CMSAttribute.type : CMSAttribute → Oid
  | .contentType _ => ⟨1, 2, [840, 113549, 1, 9, 3], by decide, by decide⟩
  | .messageDigest _ => ⟨1, 2, [840, 113549, 1, 9, 4], by decide, by decide⟩

/-- `CMSAttributes`. -/
abbrev CMSAttributes := Multiset CMSAttribute

structure IssuerAndSerialNumber where
  issuer : Name
  serialNumber : ℤ

structure SignerInfo where
  version : ℤ
  sid : IssuerAndSerialNumber Name
  digestAlgorithm : Algorithm
  signedAttrs : CMSAttributes
  signatureAlgorithm : Algorithm
  signature : List UInt8

structure SignedData where
  version : ℤ
  digestAlgorithms : Multiset Algorithm
  encapContentInfo : EncapsulatedContentInfo
  signerInfos : Multiset (SignerInfo Name)

/-- `ContentInfo`, by the content type that is used. -/
inductive ContentInfo where
  | signedData (content : SignedData Name)

def ContentInfo.contentType {Name : Type} : ContentInfo Name → Oid
  | .signedData _ => ⟨1, 2, [840, 113549, 1, 7, 2], by decide, by decide⟩

/-! ### The library -/

/-- A class of `asn1crypto`: `dump`, and `load` read to the last field. -/
structure Asn1Class (α : Type) where
  dump : α → List UInt8
  load : List UInt8 → Except PyError α

/-- What `create_cms` has of `asn1crypto`. -/
structure Asn1 where
  /-- `CertReqMessages.load`, with the values of the known extensions read as well. -/
  loadCertReqMessages : List UInt8 → Except PyError (List (CertReqMsg Name PublicKeyInfo))
  /-- `name in sequence` for an optional field of it, by whether it is present. -/
  contains : Bool → Bool
  /-- The error of setting a required field to the value that an absent one reads as. -/
  absentError : String → PyError
  /-- `ObjectIdentifier(text)`. -/
  objectIdentifier : String → Except PyError Oid
  /-- `Name.build` with a `common_name`. -/
  buildName : String → Name
  /-- The parameters that an algorithm gets with its identifier. -/
  defaultParameters : Oid → Option Unit
  bmpString : Asn1Class String
  certificateTemplateOid : Asn1Class CertificateTemplateOid
  certificationRequestInfo : Asn1Class (CertificationRequestInfo Name PublicKeyInfo)
  pkiData : Asn1Class (PKIData Name PublicKeyInfo)
  cmsAttributes : Asn1Class CMSAttributes
  contentInfo : Asn1Class (ContentInfo Name)

variable {Name PublicKeyInfo}

/-- The other sequences are empty. -/
structure PKIData.RequestsOnly (pkiData : PKIData Name PublicKeyInfo) : Prop where
  controlSequence : pkiData.controlSequence = []
  cmsSequence : pkiData.cmsSequence = []
  otherMsgSequence : pkiData.otherMsgSequence = []

/-- What is dumped is loaded as it was. -/
def Asn1Class.LoadsDumped {α : Type} (cls : Asn1Class α) : Prop :=
  ∀ a, cls.load (cls.dump a) = .ok a

/-- What `create_cms` relies on: a present field is in its sequence, and dumping
and loading are inverse on the classes that are nested as octets. -/
structure Asn1.Laws (asn1 : Asn1 Name PublicKeyInfo) : Prop where
  contains_present : asn1.contains true = true
  bmpString : asn1.bmpString.LoadsDumped
  certificateTemplateOid : asn1.certificateTemplateOid.LoadsDumped
  pkiData : ∀ a : PKIData Name PublicKeyInfo, a.RequestsOnly →
    asn1.pkiData.load (asn1.pkiData.dump a) = .ok a
  contentInfo : asn1.contentInfo.LoadsDumped

end AdcsConnector.Cms
