/-
The messages of `Cms.Types` in the distinguished encoding rules: an `Asn1` in
which names and public keys stand for the octets inside them.

* `Encoding.pkiData`, `Encoding.contentInfo` and the elements they are made of;
* `Encoding.loadCertReqMessages`: the CRMF messages, field by field;
* `derAsn1`, `derAsn1_laws`: the library, with what the request relies on.
-/
import AdcsConnector.Cms.Types

namespace AdcsConnector.Cms

open Der

namespace Encoding

/-- The octets inside a `Name` or a `PublicKeyInfo`. -/
abbrev Octets := List UInt8

/-! ### The request that goes -/

def algorithm : Element Algorithm :=
  .sequence <| (Contents.cons Element.oid.codec
    (.optional .null .nil (Contents.avoids_nil _))).iso
      (fun a => (a.algorithm, a.parameters, ())) (fun p => ⟨p.1, p.2.1⟩) fun _ => rfl

def extension : Element Extension :=
  .sequence <| (Contents.cons Element.oid.codec
    (.optional .boolean (.cons Element.octetString.codec .nil)
      (Contents.avoids_cons (by decide) _))).iso
    (fun e => (e.extnId, if e.critical then some true else none, e.extnValue, ()))
    (fun p => ⟨p.1, p.2.1.getD false, p.2.2.1⟩) fun e => by
      obtain ⟨extnId, _ | _, extnValue⟩ := e <;> rfl

def certificateTemplateOid : Element CertificateTemplateOid :=
  .sequence <| (Contents.cons Element.oid.codec
    (.cons Element.integer.codec (.single Element.integer.codec))).iso
      (fun t => (t.templateID, t.templateMajorVersion, t.templateMinorVersion))
      (fun p => ⟨p.1, p.2.1, p.2.2⟩) fun _ => rfl

def extensions : Element (List Extension) := .sequence (.sequenceOf extension.codec)

def criAttribute : Element CRIAttribute :=
  .sequence <| (Contents.cons Element.oid.codec
    (.single (Element.set (.setOf extensions.codec)).codec)).ofPartial
      (fun a => (a.type, match a with | .extensionRequest values => values))
      (fun p => if p.1 = CRIAttribute.type (.extensionRequest p.2) then
        some (.extensionRequest p.2) else none) fun a => by cases a; rfl

def name : Element Octets := .sequence .octets

def certificationRequestInfo : Element (CertificationRequestInfo Octets Octets) :=
  .sequence <| (Contents.cons Element.integer.codec (.cons name.codec
    (.cons (Element.sequence .octets).codec
      (.single (Element.context 0 (.setOf criAttribute.codec)).codec)))).iso
    (fun c => (c.version, c.subject, c.subjectPkInfo, c.attributes))
    (fun p => ⟨p.1, p.2.1, p.2.2.1, p.2.2.2⟩) fun _ => rfl

def nullSigned : Element (CertificationRequestNullSigned Octets Octets) :=
  .sequence <| (Contents.cons certificationRequestInfo.codec (.cons algorithm.codec
    (.single Element.bitString.codec))).iso
      (fun c => (c.certificationRequestInfo, c.signatureAlgorithm, c.signature))
      (fun p => ⟨p.1, p.2.1, p.2.2⟩) fun _ => rfl

def taggedRequest : Element (TaggedRequest Octets Octets) :=
  .context 0 <| (Contents.cons Element.integer.codec (.single nullSigned.codec)).iso
    (fun | .tcr tcr => (tcr.bodyPartID, tcr.certificationRequest))
    (fun p => .tcr ⟨p.1, p.2⟩) fun a => by cases a; rfl

def pkiData : Element (PKIData Octets Octets) :=
  let anySequence := (Element.sequence (.sequenceOf Codec.any)).codec
  .sequence <| (Contents.cons anySequence
    (.cons (Element.sequence (.sequenceOf taggedRequest.codec)).codec
      (.cons anySequence (.single anySequence)))).iso
    (fun d => (d.controlSequence, d.reqSequence, d.cmsSequence, d.otherMsgSequence))
    (fun p => ⟨p.1, p.2.1, p.2.2.1, p.2.2.2⟩) fun _ => rfl

def encapContentInfo : Element EncapsulatedContentInfo :=
  .sequence <| (Contents.cons Element.oid.codec
    (.single (Element.context 0 (.single Element.octetString.codec)).codec)).iso
      (fun e => (e.contentType, e.content)) (fun p => ⟨p.1, p.2⟩) fun _ => rfl

/-- The values of an attribute, as contents of their set. -/
def attributeValues : CMSAttribute → List UInt8
  | .contentType values => (Contents.setOf Element.oid.codec).encode values
  | .messageDigest values => (Contents.setOf Element.octetString.codec).encode values

/-- An attribute, read by its type. -/
def readAttribute (p : Oid × List UInt8) : Option CMSAttribute :=
  if p.1 = CMSAttribute.type (.contentType 0) then
    ((Contents.setOf Element.oid.codec).decode p.2).map .contentType
  else if p.1 = CMSAttribute.type (.messageDigest 0) then
    ((Contents.setOf Element.octetString.codec).decode p.2).map .messageDigest
  else none

lemma readAttribute_eq (a : CMSAttribute) : readAttribute (a.type, attributeValues a) = some a := by
  cases a with
  | contentType values =>
      have htype : CMSAttribute.type (.contentType values) = CMSAttribute.type (.contentType 0) :=
        rfl
      simp only [attributeValues, readAttribute, htype, if_true, Contents.decode_encode,
        Option.map_some]
  | messageDigest values =>
      have htype : CMSAttribute.type (.messageDigest values) =
          CMSAttribute.type (.messageDigest 0) := rfl
      have hne : CMSAttribute.type (.messageDigest 0) ≠ CMSAttribute.type (.contentType 0) := by
        decide
      simp only [attributeValues, readAttribute, htype, hne, if_false, if_true,
        Contents.decode_encode, Option.map_some]

def cmsAttribute : Element CMSAttribute :=
  .sequence <| (Contents.cons Element.oid.codec
    (.single (Element.set .octets).codec)).ofPartial (fun a => (a.type, attributeValues a))
      readAttribute readAttribute_eq

def sid : Element (IssuerAndSerialNumber Octets) :=
  .sequence <| (Contents.cons name.codec (.single Element.integer.codec)).iso
    (fun s => (s.issuer, s.serialNumber)) (fun p => ⟨p.1, p.2⟩) fun _ => rfl

def signerInfo : Element (SignerInfo Octets) :=
  .sequence <| (Contents.cons Element.integer.codec (.cons sid.codec (.cons algorithm.codec
    (.cons (Element.context 0 (.setOf cmsAttribute.codec)).codec (.cons algorithm.codec
      (.single Element.octetString.codec)))))).iso
    (fun s => (s.version, s.sid, s.digestAlgorithm, s.signedAttrs, s.signatureAlgorithm,
      s.signature))
    (fun p => ⟨p.1, p.2.1, p.2.2.1, p.2.2.2.1, p.2.2.2.2.1, p.2.2.2.2.2⟩) fun _ => rfl

def signedData : Element (SignedData Octets) :=
  .sequence <| (Contents.cons Element.integer.codec
    (.cons (Element.set (.setOf algorithm.codec)).codec (.cons encapContentInfo.codec
      (.single (Element.set (.setOf signerInfo.codec)).codec)))).iso
    (fun s => (s.version, s.digestAlgorithms, s.encapContentInfo, s.signerInfos))
    (fun p => ⟨p.1, p.2.1, p.2.2.1, p.2.2.2⟩) fun _ => rfl

def contentInfo : Element (ContentInfo Octets) :=
  .sequence <| (Contents.cons Element.oid.codec
    (.single (Element.context 0 (.single signedData.codec)).codec)).ofPartial
      (fun c : ContentInfo Octets => (c.contentType, match c with | .signedData content => content))
      (fun p => if p.1 = ContentInfo.contentType (.signedData p.2) then
        some (.signedData p.2) else none) fun c => by cases c; rfl

/-! ### The request that comes -/

/-- The elements inside one. -/
def fields (a : Any) : Option (List Any) := (Contents.sequenceOf Codec.any).decode a.contents

/-- The element of a tag. -/
def field (tag : UInt8) (l : List Any) : Option Any := l.find? (·.tag = tag)

def loadExtension (a : Any) : Option LoadedExtension := do
  let l ← fields a
  let extnId ← field 0x06 l
  let extnValue ← field 0x04 l
  let critical := (field 0x01 l).bind fun b => Contents.bool.decode b.contents
  return ⟨← Contents.oid.decode extnId.contents, critical, extnValue.contents⟩

def loadCertTemplate (a : Any) : Option (CertTemplate Octets Octets) := do
  let l ← fields a
  let subject := ((field 0xA5 l).bind fields).bind (field 0x30)
  let extensions ← match (field 0xA9 l).bind fields with
    | none => some none
    | some exts => (exts.mapM loadExtension).map some
  return ⟨subject.map (·.contents), (field 0xA6 l).map (·.contents), extensions⟩

def loadCertReqMsg (a : Any) : Option (CertReqMsg Octets Octets) := do
  let certReq ← field 0x30 (← fields a)
  let certTemplate ← field 0x30 (← fields certReq)
  return ⟨⟨← loadCertTemplate certTemplate⟩⟩

def loadCertReqMessages (octets : List UInt8) : Option (List (CertReqMsg Octets Octets)) := do
  let (a, _) ← Any.read octets
  (← fields a).mapM loadCertReqMsg

/-! ### The library -/

/-- `ObjectIdentifier`, of decimal arcs between dots. -/
def objectIdentifier (text : String) : Option Oid := do
  match ← (text.toList.splitOn '.').mapM Digits.int with
  | first :: second :: rest =>
      if h : first.toNat ≤ 2 ∧ (first.toNat < 2 → second.toNat < 40) then
        some ⟨first.toNat, second.toNat, rest.map Int.toNat, h.1, h.2⟩
      else none
  | _ => none

/-- A name with one common name. -/
def buildName (commonName : String) : Octets :=
  Any.write ⟨0x31, Any.write ⟨0x30,
    Element.oid.write commonNameId ++ Any.write ⟨0x0C, utf8 commonName⟩⟩⟩

/-- What is read, or an error. -/
def orError {α : Type} (a : Option α) : Except PyError α :=
  a.elim (.error (.valueError "Error parsing")) .ok

/-- The class of an element. -/
def asn1Class {α : Type} (e : Element α) : Asn1Class α where
  dump := e.write
  load octets := orError ((e.read octets).map Prod.fst)

lemma asn1Class_loadsDumped {α : Type} (e : Element α) : (asn1Class e).LoadsDumped := by
  intro a
  have h := e.read_write a []
  rw [List.append_nil] at h
  simp only [asn1Class, h]
  rfl

end Encoding

open Encoding in
/-- The library on octets. -/
def derAsn1 : Asn1 Octets Octets where
  loadCertReqMessages octets := orError (loadCertReqMessages octets)
  -- iterating a sequence yields the names of all its fields
  contains _ := true
  absentError field := .valueError field
  objectIdentifier text := orError (objectIdentifier text)
  buildName := buildName
  defaultParameters id := if id = sha256Id then some () else none
  bmpString := asn1Class .bmpString
  certificateTemplateOid := asn1Class certificateTemplateOid
  certificationRequestInfo := asn1Class certificationRequestInfo
  pkiData := asn1Class pkiData
  cmsAttributes := asn1Class (.set (.setOf cmsAttribute.codec))
  contentInfo := asn1Class contentInfo

theorem derAsn1_laws : derAsn1.Laws where
  contains_present := rfl
  bmpString := Encoding.asn1Class_loadsDumped _
  certificateTemplateOid := Encoding.asn1Class_loadsDumped _
  pkiData a _ := Encoding.asn1Class_loadsDumped _ a
  contentInfo := Encoding.asn1Class_loadsDumped _

end AdcsConnector.Cms
