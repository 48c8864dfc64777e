/-
`utils/cms_utils.py`: a CRMF request as a CMS message for the authority.

* `convertCrmfToNullSignedPkcs10`: the PKCS#10 request, with the template and the
  subject alternative name as extensions;
* `createPkiData`, `createSignedData`, `createCms`: the CMC and CMS around it;
* `createCms_carries`: what is decoded of the message is what was asked for, and
  its digests match.
-/
import AdcsConnector.Cms.Encoding
import AdcsConnector.Library.Base64
import AdcsConnector.Library.Program
import AdcsConnector.Library.Sha256

namespace AdcsConnector.Cms

open Der Sha256

variable {Name PublicKeyInfo : Type} (asn1 : Asn1 Name PublicKeyInfo)

/-! ### The PKCS#10 request -/

/-- `base64.b64decode` of a text. -/
def b64decodeText (s : String) : Except PyError (List UInt8) :=
  if s.toList.all (·.toNat < 128) then
    (Base64.b64decode (s.toList.map fun c => UInt8.ofNat c.toNat)).mapError .valueError
  else .error (.valueError "string argument should contain only ASCII characters")

/-- `int(text)`; the message of the error goes on with the text. -/
def pyInt (text : List Char) : Except PyError ℤ :=
  match Digits.int text with
  | some n => .ok n
  | none => .error (.valueError "invalid literal for int() with base 10")

/-- The identifier of a template, from its OID and its version. -/
def certTemplateOid (template : TemplateData) : Except PyError CertificateTemplateOid := do
  let templateID ← asn1.objectIdentifier template.oid
  match template.version.toList.splitOn '.' with
  | major :: versions =>
      let templateMajorVersion ← pyInt major
      match versions with
      | minor :: _ => return ⟨templateID, templateMajorVersion, ← pyInt minor⟩
      | [] => .error .indexError
  | [] => .error .indexError

/-- The certificate template extension. -/
def templateExtension (template : TemplateData) : Except PyError Extension :=
  if template.schemaVersion = "1" then
    .ok ⟨microsoftEnrollCerttype, false, asn1.bmpString.dump template.name⟩
  else do
    let certTemplateOid ← certTemplateOid asn1 template
    return ⟨microsoftCertificateTemplate, false, asn1.certificateTemplateOid.dump certTemplateOid⟩

/-- `crmf_exts`: absent extensions read as none. -/
def crmfExts (certTemplate : CertTemplate Name PublicKeyInfo) : Option (List LoadedExtension) :=
  if asn1.contains certTemplate.extensions.isSome then some (certTemplate.extensions.getD [])
  else none

/-- `san_ext`: an omitted `critical` reads as `FALSE`. -/
def sanExt (ext : LoadedExtension) : Extension where
  extnId := ext.extnId
  critical := if asn1.contains ext.critical.isSome then ext.critical.getD false else false
  extnValue := ext.extnValue

/-- The loop over `crmf_exts`, which ends at the first subject alternative name. -/
def copySan (extensions : List Extension) : List LoadedExtension → List Extension
  | [] => extensions
  | ext :: crmfExts =>
      let extId := ext.extnId.dotted
      if extId = "2.5.29.17" ∨ extId = "subject_alt_name" then extensions ++ [sanExt asn1 ext]
      else copySan extensions crmfExts

/-- The extensions that are asked for: the one of the template, and the copy. -/
def requestExtensions (certTemplate : CertTemplate Name PublicKeyInfo) (extension : Extension) :
    List Extension :=
  match crmfExts asn1 certTemplate with
  | none => [extension]
  | some crmfExts => copySan asn1 [extension] crmfExts

/-- The request with these extensions, signed by the digest of its information. -/
def nullSigned (subject : Name) (subjectPkInfo : PublicKeyInfo) (extensions : List Extension) :
    CertificationRequestNullSigned Name PublicKeyInfo :=
  let cri : CertificationRequestInfo Name PublicKeyInfo :=
    ⟨0, subject, subjectPkInfo, {.extensionRequest {extensions}}⟩
  ⟨cri, ⟨sha256Id, asn1.defaultParameters sha256Id⟩,
    sha256 (asn1.certificationRequestInfo.dump cri)⟩

/-- A required field, set to what an optional one reads as. -/
def setRequired {α : Type} (field : String) : Option α → Except PyError α
  | some a => .ok a
  | none => .error (asn1.absentError field)

/-- `convert_crmf_to_null_signed_pkcs10`. -/
def convertCrmfToNullSignedPkcs10 (encoded : String) (template : TemplateData) :
    Except PyError (CertificationRequestNullSigned Name PublicKeyInfo) := do
  let certReqMessages ← asn1.loadCertReqMessages (← b64decodeText encoded)
  match certReqMessages with
  | [] => .error .indexError
  | certReqMsg :: _ =>
      let certTemplate := certReqMsg.certReq.certTemplate
      let subject ← setRequired asn1 "subject" certTemplate.subject
      let subjectPkInfo ← setRequired asn1 "subject_pk_info" certTemplate.publicKey
      let extension ← templateExtension asn1 template
      return nullSigned asn1 subject subjectPkInfo (requestExtensions asn1 certTemplate extension)

/-! ### The message -/

/-- `create_pki_data`. -/
def createPkiData (pkcs10 : CertificationRequestNullSigned Name PublicKeyInfo) :
    PKIData Name PublicKeyInfo :=
  ⟨[], [.tcr ⟨0, pkcs10⟩], [], []⟩

/-- `create_encap_content_info`. -/
def createEncapContentInfo (pkiData : PKIData Name PublicKeyInfo) : EncapsulatedContentInfo :=
  ⟨cctPKIData, asn1.pkiData.dump pkiData⟩

/-- `create_signed_attributes`. -/
def createSignedAttributes (eciContent : List UInt8) : CMSAttributes :=
  {.contentType {cctPKIData}, .messageDigest {sha256 eciContent}}

/-- `create_signer_infos`. -/
def createSignerInfos (caName : String) (eciContent : List UInt8) : Multiset (SignerInfo Name) :=
  let signedAttributes := createSignedAttributes eciContent
  {{version := 1
    sid := ⟨asn1.buildName caName, 123456789⟩
    digestAlgorithm := ⟨sha256Id, none⟩
    signedAttrs := signedAttributes
    signatureAlgorithm := ⟨noSignature, some ()⟩
    signature := sha256 (asn1.cmsAttributes.dump signedAttributes)}}

/-- `create_signed_data`. -/
def createSignedData (pkiData : PKIData Name PublicKeyInfo) (caName : String) : SignedData Name :=
  let encapContentInfo := createEncapContentInfo asn1 pkiData
  ⟨3, {⟨sha256Id, none⟩}, encapContentInfo, createSignerInfos asn1 caName encapContentInfo.content⟩

/-- `create_cms`. -/
def createCms (crmf caName : String) (template : TemplateData) : Except PyError (List UInt8) := do
  let pkcs10 ← convertCrmfToNullSignedPkcs10 asn1 crmf template
  let contentInfo := .signedData (createSignedData asn1 (createPkiData pkcs10) caName)
  return Base64.b64encode (asn1.contentInfo.dump contentInfo)

/-! ### What is asked for -/

/-- A subject alternative name. -/
def LoadedExtension.IsSubjectAltName (ext : LoadedExtension) : Prop :=
  ext.extnId.dotted = "2.5.29.17"

instance : DecidablePred LoadedExtension.IsSubjectAltName :=
  fun ext => inferInstanceAs (Decidable (ext.extnId.dotted = "2.5.29.17"))

example : subjectAltName.dotted = "2.5.29.17" := by decide

/-- The first subject alternative name that is asked for. -/
def CertTemplate.san (certTemplate : CertTemplate Name PublicKeyInfo) : Option Extension :=
  ((certTemplate.extensions.getD []).find? (·.IsSubjectAltName)).map LoadedExtension.values

/-- A template has an OID, and a version of two decimal integers. -/
structure IdentifiedBy (template : TemplateData) (id : CertificateTemplateOid) : Prop where
  oid : asn1.objectIdentifier template.oid = .ok id.templateID
  version : ∃ major minor : String, template.version = major ++ "." ++ minor ∧
    Digits.int major.toList = some id.templateMajorVersion ∧
    Digits.int minor.toList = some id.templateMinorVersion

/-- The extensions that stand for a template: its name for schema version 1,
otherwise its OID and version. -/
inductive IsTemplateExtension (template : TemplateData) : Extension → Prop
  | name {value : List UInt8} (schemaVersion : template.schemaVersion = "1")
      (hvalue : asn1.bmpString.load value = .ok template.name) :
      IsTemplateExtension template ⟨microsoftEnrollCerttype, false, value⟩
  | oid {value : List UInt8} {id : CertificateTemplateOid}
      (schemaVersion : template.schemaVersion ≠ "1") (hid : IdentifiedBy asn1 template id)
      (hvalue : asn1.certificateTemplateOid.load value = .ok id) :
      IsTemplateExtension template ⟨microsoftCertificateTemplate, false, value⟩

/-- A PKCS#10 request carries what a CRMF template asks for. -/
structure Carries (certTemplate : CertTemplate Name PublicKeyInfo) (template : TemplateData)
    (pkcs10 : CertificationRequestNullSigned Name PublicKeyInfo) : Prop where
  subject : certTemplate.subject = some pkcs10.certificationRequestInfo.subject
  publicKey : certTemplate.publicKey = some pkcs10.certificationRequestInfo.subjectPkInfo
  extensions : ∃ extension, IsTemplateExtension asn1 template extension ∧
    pkcs10.certificationRequestInfo.attributes =
      {.extensionRequest {extension :: certTemplate.san.toList}}
  signature : pkcs10.signature =
    sha256 (asn1.certificationRequestInfo.dump pkcs10.certificationRequestInfo)

/-- The digests of a message are those of its content, and its signer names the
authority. -/
structure DigestsMatch (caName : String) (signedData : SignedData Name) : Prop where
  signerInfo : ∃ signerInfo, signedData.signerInfos = {signerInfo} ∧
    signerInfo.sid.issuer = asn1.buildName caName ∧
    signerInfo.signedAttrs = {.contentType {signedData.encapContentInfo.contentType},
      .messageDigest {sha256 signedData.encapContentInfo.content}} ∧
    signerInfo.signature = sha256 (asn1.cmsAttributes.dump signerInfo.signedAttrs)

/-! ### The extensions -/

section

variable {asn1} (laws : asn1.Laws)
include laws

lemma sanExt_eq (ext : LoadedExtension) : sanExt asn1 ext = ext.values := by
  obtain ⟨extnId, critical, extnValue⟩ := ext
  cases critical with
  | none => simp [sanExt, LoadedExtension.values]
  | some b => simp [sanExt, LoadedExtension.values, laws.contains_present]

/-- The loop appends the first subject alternative name, if there is one. -/
lemma copySan_eq (extensions : List Extension) (crmfExts : List LoadedExtension) :
    copySan asn1 extensions crmfExts = extensions ++
      ((crmfExts.find? (·.IsSubjectAltName)).map LoadedExtension.values).toList := by
  induction crmfExts with
  | nil => exact (List.append_nil extensions).symm
  | cons ext crmfExts ih =>
      -- the name of the extension is never the text of an identifier
      have hname : ext.extnId.dotted ≠ "subject_alt_name" := by
        intro heq
        have h := ext.extnId.not_mem_dotted (c := '_') (by decide) (by decide)
        rw [heq] at h
        exact h (by decide)
      simp only [copySan, hname, or_false]
      by_cases h : ext.IsSubjectAltName
      · have hfind : (ext :: crmfExts).find? (·.IsSubjectAltName) = some ext :=
          List.find?_cons_of_pos (decide_eq_true h)
        rw [hfind, sanExt_eq laws]
        exact if_pos h
      · have hfind : (ext :: crmfExts).find? (·.IsSubjectAltName) =
            crmfExts.find? (·.IsSubjectAltName) :=
          List.find?_cons_of_neg (by simpa using h)
        rw [hfind, ← ih]
        exact if_neg h

/-- Whether absent extensions count as contained does not matter. -/
lemma requestExtensions_eq (certTemplate : CertTemplate Name PublicKeyInfo)
    (extension : Extension) :
    requestExtensions asn1 certTemplate extension = extension :: certTemplate.san.toList := by
  rw [requestExtensions, crmfExts, CertTemplate.san]
  cases certTemplate.extensions with
  | none => cases asn1.contains (none : Option (List LoadedExtension)).isSome <;> rfl
  | some exts =>
      rw [Option.isSome_some, laws.contains_present, if_pos rfl]
      exact copySan_eq laws [extension] exts

end

lemma pyInt_eq_ok {text : List Char} {n : ℤ} (h : Digits.int text = some n) :
    pyInt text = .ok n := by
  rw [pyInt, h]

variable {asn1}

lemma certTemplateOid_eq {template : TemplateData} {id : CertificateTemplateOid}
    (hid : IdentifiedBy asn1 template id) : certTemplateOid asn1 template = .ok id := by
  obtain ⟨major, minor, hversion, hmajor, hminor⟩ := hid.version
  have hdot {text : List Char} {n : ℤ} (h : Digits.int text = some n) : '.' ∉ text :=
    Digits.not_mem_of_int (by decide) (by decide) (by decide) (by decide) (by decide) h
  have hsplit : template.version.toList.splitOn '.' = [major.toList, minor.toList] := by
    have hcons : template.version.toList = major.toList ++ '.' :: minor.toList := by
      rw [hversion, String.toList_append, String.toList_append, List.append_assoc]
      rfl
    rw [hcons, List.splitOn_append_cons_self_of_not_mem (hdot hmajor),
      List.splitOn_eq_singleton (hdot hminor)]
  rw [certTemplateOid, hid.oid, hsplit]
  simp only [Except.bind, bind, pyInt_eq_ok hmajor, pyInt_eq_ok hminor]
  rfl

lemma exists_templateExtension (laws : asn1.Laws) {template : TemplateData}
    (htemplate : template.schemaVersion = "1" ∨ ∃ id, IdentifiedBy asn1 template id) :
    ∃ extension, templateExtension asn1 template = .ok extension ∧
      IsTemplateExtension asn1 template extension := by
  by_cases hschema : template.schemaVersion = "1"
  · exact ⟨_, if_pos hschema, .name hschema (laws.bmpString template.name)⟩
  · obtain ⟨id, hid⟩ := htemplate.resolve_left hschema
    refine ⟨⟨microsoftCertificateTemplate, false, asn1.certificateTemplateOid.dump id⟩, ?_,
      .oid hschema hid (laws.certificateTemplateOid id)⟩
    rw [templateExtension, if_neg hschema, certTemplateOid_eq hid]
    rfl

/-! ### What is carried -/

/-- The PKCS#10 request carries what the first CRMF message asks for. -/
lemma exists_pkcs10 (laws : asn1.Laws) {crmf : String} {der : List UInt8}
    (hder : b64decodeText crmf = .ok der) {certReqMsg : CertReqMsg Name PublicKeyInfo}
    {certReqMessages : List (CertReqMsg Name PublicKeyInfo)}
    (hload : asn1.loadCertReqMessages der = .ok (certReqMsg :: certReqMessages)) {subject : Name}
    (hsubject : certReqMsg.certReq.certTemplate.subject = some subject)
    {publicKey : PublicKeyInfo}
    (hpublicKey : certReqMsg.certReq.certTemplate.publicKey = some publicKey)
    {template : TemplateData}
    (htemplate : template.schemaVersion = "1" ∨ ∃ id, IdentifiedBy asn1 template id) :
    ∃ pkcs10, convertCrmfToNullSignedPkcs10 asn1 crmf template = .ok pkcs10 ∧
      Carries asn1 certReqMsg.certReq.certTemplate template pkcs10 := by
  obtain ⟨extension, hextension, htemplate⟩ := exists_templateExtension laws htemplate
  let certTemplate := certReqMsg.certReq.certTemplate
  refine ⟨nullSigned asn1 subject publicKey (requestExtensions asn1 certTemplate extension),
    ?_, hsubject, hpublicKey, ⟨extension, htemplate, ?_⟩, rfl⟩
  · rw [convertCrmfToNullSignedPkcs10, hder]
    simp only [Except.bind, bind, hload, hsubject, hpublicKey, setRequired, hextension]
    rfl
  · rw [requestExtensions_eq laws]
    rfl

lemma digestsMatch_createSignedData (pkiData : PKIData Name PublicKeyInfo) (caName : String) :
    DigestsMatch asn1 caName (createSignedData asn1 pkiData caName) :=
  ⟨_, rfl, rfl, rfl, rfl⟩

/-- A message carries exactly the one request that is asked for, and its digests
match: for every first CRMF message with a subject and a public key, for every
list of extensions in it, and for every template that has a name or is
identified by its OID and version. -/
theorem createCms_carries (laws : asn1.Laws) {crmf : String} {der : List UInt8}
    (hder : b64decodeText crmf = .ok der) {certReqMsg : CertReqMsg Name PublicKeyInfo}
    {certReqMessages : List (CertReqMsg Name PublicKeyInfo)}
    (hload : asn1.loadCertReqMessages der = .ok (certReqMsg :: certReqMessages)) {subject : Name}
    (hsubject : certReqMsg.certReq.certTemplate.subject = some subject)
    {publicKey : PublicKeyInfo}
    (hpublicKey : certReqMsg.certReq.certTemplate.publicKey = some publicKey) (caName : String)
    {template : TemplateData}
    (htemplate : template.schemaVersion = "1" ∨ ∃ id, IdentifiedBy asn1 template id) :
    ∃ cms message signedData pkiData pkcs10,
      createCms asn1 crmf caName template = .ok cms ∧
      Base64.b64decode cms = .ok message ∧
      asn1.contentInfo.load message = .ok (.signedData signedData) ∧
      asn1.pkiData.load signedData.encapContentInfo.content = .ok pkiData ∧
      pkiData.reqSequence = [.tcr ⟨0, pkcs10⟩] ∧
      Carries asn1 certReqMsg.certReq.certTemplate template pkcs10 ∧
      DigestsMatch asn1 caName signedData := by
  obtain ⟨pkcs10, hpkcs10, hcarries⟩ :=
    exists_pkcs10 laws hder hload hsubject hpublicKey htemplate
  have hcms : createCms asn1 crmf caName template =
      .ok (Base64.b64encode (asn1.contentInfo.dump
        (.signedData (createSignedData asn1 (createPkiData pkcs10) caName)))) := by
    rw [createCms, hpkcs10]
    rfl
  exact ⟨_, _, _, _, pkcs10, hcms, Base64.b64decode_b64encode _, laws.contentInfo _,
    laws.pkiData (createPkiData pkcs10) ⟨rfl, rfl, rfl⟩, rfl, hcarries,
    digestsMatch_createSignedData _ caName⟩

/-! ### A request with two subject alternative names -/

/-- A message for the common name `a`, with a key usage and two subject
alternative names. -/
def sampleCrmf : String :=
  "MHsweTB3AgEAMHKlDjAMMQowCAYDVQQDDAFhpiowBQYDK2VwAyEAAAECAwQFBgcICQoLDA0ODxAREhMUFRYXGBka" ++
  "GxwdHh+pNDAOBgNVHQ8BAf8EBAMCBaAwEQYDVR0RBAowCIIGYS50ZXN0MA8GA1UdEQEB/wQFMAOCAWI="

/-- The names are `a.test`, which is not critical by omission, and `b`. -/
def sampleCertTemplate : CertTemplate Encoding.Octets Encoding.Octets where
  subject := some [49, 10, 48, 8, 6, 3, 85, 4, 3, 12, 1, 97]
  publicKey := some ([48, 5, 6, 3, 43, 101, 112, 3, 33, 0] ++ (List.range 32).map UInt8.ofNat)
  extensions := some
    [⟨keyUsage, some true, [3, 2, 5, 160]⟩,
      ⟨subjectAltName, none, [48, 8, 130, 6, 97, 46, 116, 101, 115, 116]⟩,
      ⟨subjectAltName, some true, [48, 3, 130, 1, 98]⟩]

def sampleTemplate : TemplateData := ⟨"WebServer", "temp_displ", "2", "2.4", "1.2.3"⟩

lemma exists_load_sampleCrmf : ∃ der, b64decodeText sampleCrmf = .ok der ∧
    derAsn1.loadCertReqMessages der = .ok [⟨⟨sampleCertTemplate⟩⟩] := by
  have hload : (b64decodeText sampleCrmf >>= derAsn1.loadCertReqMessages) =
      .ok [⟨⟨sampleCertTemplate⟩⟩] := by decide +kernel
  exact Except.bind_eq_ok_iff.mp hload

lemma identifiedBy_sampleTemplate :
    IdentifiedBy derAsn1 sampleTemplate ⟨⟨1, 2, [3], by decide, by decide⟩, 2, 4⟩ where
  oid := by decide +kernel
  version := ⟨"2", "4", by decide, by decide, by decide⟩

theorem createCms_carries_sample :
    ∃ cms message signedData pkiData pkcs10,
      createCms derAsn1 sampleCrmf "Authority" sampleTemplate = .ok cms ∧
      Base64.b64decode cms = .ok message ∧
      derAsn1.contentInfo.load message = .ok (.signedData signedData) ∧
      derAsn1.pkiData.load signedData.encapContentInfo.content = .ok pkiData ∧
      pkiData.reqSequence = [.tcr ⟨0, pkcs10⟩] ∧
      Carries derAsn1 sampleCertTemplate sampleTemplate pkcs10 ∧
      DigestsMatch derAsn1 "Authority" signedData := by
  obtain ⟨der, hder, hload⟩ := exists_load_sampleCrmf
  exact createCms_carries derAsn1_laws hder hload rfl rfl "Authority"
    (Or.inr ⟨_, identifiedBy_sampleTemplate⟩)

end AdcsConnector.Cms
