/-
The pure parts of `discover_certificates` after the collection: what its
persistence statements are given and what they compute, with no concurrency
yet.

* `uniqueCertificates`, `newCertificates`: the deduplicated certificates in
  ascending fingerprint order, as `bulk_create` gets them;
  `newCertificates_pairwise` is the order the inserts take their index locks in;
* `idByFp`, `discoveryCertificates`: the links written for the collected
  certificates, in collection order with duplicates kept
  (`discoveryCertificates_forall₂`); the build fails only on a fingerprint
  without an id (`exists_discoveryCertificates`).
-/
import AdcsConnector.Models
import AdcsConnector.Library.Dict
import AdcsConnector.Library.Lists
import Mathlib.Data.String.Basic

namespace AdcsConnector

/-! ### Persistence of a collection -/

/-- What the WinRM part of `discover_certificates` hands to its persistence
part. Certificates only come from a CA, so `cas[0]` exists when there are any. -/
structure Collected where
  cas : List AuthorityData
  totalCertificates : List ParseResult
  cas_ne_nil : totalCertificates ≠ [] → cas ≠ []

/-- `[certificate_fingerprint(c.certificate) for c in total_certificates]`. -/
def fingerprints (total : List ParseResult) : List String :=
  total.map fun c => certificateFingerprint c.certificate

/-- `unique = dict(zip(fingerprints, total_certificates))`. -/
def uniqueCertificates (total : List ParseResult) : List (String × ParseResult) :=
  Dict.ofPairs ((fingerprints total).zip total)

/-- The rows handed to `Certificate.objects.bulk_create`, fingerprint and
content, in ascending fingerprint order. -/
def newCertificates (total : List ParseResult) : List (String × String) :=
  (Dict.sortedItems (uniqueCertificates total)).map fun p => (p.1, p.2.certificate)

/-- `id_by_fp`: the ids of the visible certificates with one of the keys. -/
def idByFp (visible : List Certificate) (keys : List String) : List (String × ℕ) :=
  Dict.ofPairs ((visible.filter fun c => c.fingerprint ∈ keys).map fun c => (c.fingerprint, c.id))

/-- `get_certificate_meta`: the CA name is taken from `cas[0]`. -/
def getCertificateMeta (cas : List AuthorityData) (templateName : String) :
    Except PyError (List MetaAttribute) :=
  match cas with
  | [] => .error .indexError
  | ca :: _ => .ok [caNameMetadataAttribute ca.name, templateNameMetadataAttribute templateName]

/-- One link row: `id_by_fp[fp]` and the metadata of the certificate. The id
comes from the table's sequence, the uuid from `uuid4`. -/
def discoveryCertificate (discoveryId : ℕ) (cas : List AuthorityData) (ids : List (String × ℕ))
    (id : ℕ) (uuid : UUID) (cert : ParseResult) : Except PyError DiscoveryCertificate :=
  match Dict.get? ids (certificateFingerprint cert.certificate) with
  | none => .error (.keyError (certificateFingerprint cert.certificate))
  | some certificateId =>
      match getCertificateMeta cas cert.template with
      | .error e => .error e
      | .ok metadata => .ok ⟨id, uuid, some metadata, discoveryId, certificateId⟩

/-- The rows handed to `DiscoveryCertificate.objects.bulk_create`, one per
collected certificate in order; `first` is the next id of the table's
sequence. -/
def discoveryCertificates (discoveryId : ℕ) (cas : List AuthorityData) (ids : List (String × ℕ)) :
    ℕ → List UUID → List ParseResult → Except PyError (List DiscoveryCertificate)
  | _, _, [] => .ok []
  | first, uuids, cert :: total => do
      let link ← discoveryCertificate discoveryId cas ids first (uuids.headD 0) cert
      let links ← discoveryCertificates discoveryId cas ids (first + 1) uuids.tail total
      return link :: links

/-! ### Facts about the rows written -/

lemma keys_zip (total : List ParseResult) :
    Dict.keys ((fingerprints total).zip total) = fingerprints total := by
  rw [Dict.keys, List.map_fst_zip (by simp [fingerprints])]

lemma mem_keys_uniqueCertificates {total : List ParseResult} {fp : String} :
    fp ∈ Dict.keys (uniqueCertificates total) ↔ fp ∈ fingerprints total := by
  rw [uniqueCertificates, Dict.mem_keys_ofPairs, keys_zip]

/-- Every row of the bulk insert carries the fingerprint of its content. -/
lemma newCertificates_fingerprint {total : List ParseResult} {p : String × String}
    (hp : p ∈ newCertificates total) : p.1 = certificateFingerprint p.2 := by
  obtain ⟨q, hq, rfl⟩ := List.mem_map.mp hp
  have hq' : q ∈ (fingerprints total).zip total :=
    Dict.mem_of_mem_ofPairs ((Dict.sortedItems_perm _).mem_iff.mp hq)
  obtain ⟨i, hi, rfl⟩ := List.mem_iff_getElem.mp hq'
  simp [fingerprints]

/-- Every fingerprint collected is inserted, or found present. -/
lemma mem_newCertificates_fst {total : List ParseResult} {fp : String} :
    fp ∈ (newCertificates total).map Prod.fst ↔ fp ∈ fingerprints total := by
  rw [← mem_keys_uniqueCertificates, newCertificates, List.map_map, Dict.keys]
  exact ((Dict.sortedItems_perm _).map Prod.fst).mem_iff

/-- The bulk insert goes in strictly ascending fingerprint order. -/
lemma newCertificates_pairwise (total : List ParseResult) :
    (newCertificates total).Pairwise fun p q => p.1 < q.1 := by
  have h := Dict.sortedItems_pairwise (Dict.nodup_keys_ofPairs ((fingerprints total).zip total))
  exact List.pairwise_map.mpr (h.imp id)

/-- Every key of a visible certificate gets an id, the id of a visible
certificate with that fingerprint. -/
lemma exists_idByFp {visible : List Certificate} {keys : List String} {fp : String}
    (hfp : fp ∈ keys) (hc : ∃ c ∈ visible, c.fingerprint = fp) :
    ∃ id, Dict.get? (idByFp visible keys) fp = some id := by
  obtain ⟨c, hc, rfl⟩ := hc
  have hkey : c.fingerprint ∈ Dict.keys (idByFp visible keys) := by
    rw [idByFp, Dict.mem_keys_ofPairs, Dict.keys, List.map_map]
    exact List.mem_map.mpr ⟨c, by simpa using ⟨hc, hfp⟩, rfl⟩
  obtain ⟨id, hid, -⟩ := Dict.get?_of_mem_keys hkey
  exact ⟨id, hid⟩

/-- An id found is the id of a visible certificate with that fingerprint. -/
lemma idByFp_sound {visible : List Certificate} {keys : List String} {fp : String} {id : ℕ}
    (h : Dict.get? (idByFp visible keys) fp = some id) :
    ∃ c ∈ visible, c.id = id ∧ c.fingerprint = fp := by
  have hmem := Dict.mem_of_mem_ofPairs (Dict.mem_of_get? h)
  obtain ⟨c, hc, heq⟩ := List.mem_map.mp hmem
  obtain ⟨hfp, hid⟩ := Prod.mk.inj heq
  exact ⟨c, (List.mem_filter.mp hc).1, hid, hfp⟩

/-- What a link row says about the collected certificate it was built for. -/
structure LinkFor (discoveryId : ℕ) (cas : List AuthorityData) (ids : List (String × ℕ))
    (cert : ParseResult) (link : DiscoveryCertificate) : Prop where
  discoveryId_eq : link.discoveryId = discoveryId
  certificateId_eq :
    Dict.get? ids (certificateFingerprint cert.certificate) = some link.certificateId
  metadata_eq : ∃ metadata, getCertificateMeta cas cert.template = .ok metadata ∧
    link.metadata = some metadata

lemma discoveryCertificate_eq_ok {discoveryId : ℕ} {cas : List AuthorityData}
    {ids : List (String × ℕ)} {id : ℕ} {uuid : UUID} {cert : ParseResult}
    {link : DiscoveryCertificate}
    (h : discoveryCertificate discoveryId cas ids id uuid cert = .ok link) :
    link.id = id ∧ link.uuid = uuid ∧ LinkFor discoveryId cas ids cert link := by
  rw [discoveryCertificate] at h
  split at h
  · cases h
  · next certificateId hid =>
    split at h
    · cases h
    · next metadata hmeta =>
      obtain rfl := Except.ok.inj h
      exact ⟨rfl, rfl, rfl, hid, metadata, hmeta, rfl⟩

/-- A bulk of links begins with the link of the first certificate. -/
lemma discoveryCertificates_cons_eq_ok {discoveryId : ℕ} {cas : List AuthorityData}
    {ids : List (String × ℕ)} {first : ℕ} {uuids : List UUID} {cert : ParseResult}
    {total : List ParseResult} {links : List DiscoveryCertificate}
    (h : discoveryCertificates discoveryId cas ids first uuids (cert :: total) = .ok links) :
    ∃ link rest, links = link :: rest ∧
      discoveryCertificate discoveryId cas ids first (uuids.headD 0) cert = .ok link ∧
      discoveryCertificates discoveryId cas ids (first + 1) uuids.tail total = .ok rest := by
  rw [discoveryCertificates] at h
  cases hl : discoveryCertificate discoveryId cas ids first (uuids.headD 0) cert with
  | error e => rw [hl] at h; cases h
  | ok link =>
      cases hr : discoveryCertificates discoveryId cas ids (first + 1) uuids.tail total with
      | error e => rw [hl, hr] at h; cases h
      | ok rest =>
          rw [hl, hr] at h
          obtain rfl := Except.ok.inj h
          exact ⟨link, rest, rfl, rfl, rfl⟩

/-- **One link per collected certificate, in order, duplicates kept.** -/
theorem discoveryCertificates_forall₂ {discoveryId : ℕ} {cas : List AuthorityData}
    {ids : List (String × ℕ)} {first : ℕ} {uuids : List UUID} {total : List ParseResult}
    {links : List DiscoveryCertificate}
    (h : discoveryCertificates discoveryId cas ids first uuids total = .ok links) :
    List.Forall₂ (LinkFor discoveryId cas ids) total links := by
  induction total generalizing first uuids links with
  | nil =>
      obtain rfl := Except.ok.inj h
      exact .nil
  | cons cert total ih =>
      obtain ⟨link, rest, rfl, hlink, hrest⟩ := discoveryCertificates_cons_eq_ok h
      exact .cons (discoveryCertificate_eq_ok hlink).2.2 (ih hrest)

/-- The links take successive ids of the sequence. -/
lemma discoveryCertificates_ids {discoveryId : ℕ} {cas : List AuthorityData}
    {ids : List (String × ℕ)} {first : ℕ} {uuids : List UUID} {total : List ParseResult}
    {links : List DiscoveryCertificate}
    (h : discoveryCertificates discoveryId cas ids first uuids total = .ok links) :
    links.map (·.id) = List.range' first total.length := by
  induction total generalizing first uuids links with
  | nil =>
      obtain rfl := Except.ok.inj h
      rfl
  | cons cert total ih =>
      obtain ⟨link, rest, rfl, hlink, hrest⟩ := discoveryCertificates_cons_eq_ok h
      calc (link :: rest).map (·.id)
          = first :: rest.map (·.id) := by rw [List.map_cons, (discoveryCertificate_eq_ok hlink).1]
        _ = first :: List.range' (first + 1) total.length := by rw [ih hrest]
        _ = List.range' first (cert :: total).length := by rw [List.length_cons, List.range'_succ]

/-- The build of the links succeeds when every fingerprint has an id. -/
lemma exists_discoveryCertificates (discoveryId : ℕ) {cas : List AuthorityData}
    {ids : List (String × ℕ)} (first : ℕ) (uuids : List UUID) {total : List ParseResult}
    (hcas : total ≠ [] → cas ≠ [])
    (hids : ∀ fp ∈ fingerprints total, ∃ id, Dict.get? ids fp = some id) :
    ∃ links, discoveryCertificates discoveryId cas ids first uuids total = .ok links := by
  induction total generalizing first uuids with
  | nil => exact ⟨[], rfl⟩
  | cons cert total ih =>
      obtain ⟨id, hid⟩ := hids (certificateFingerprint cert.certificate) (by simp [fingerprints])
      obtain ⟨ca, cas', rfl⟩ := List.exists_cons_of_ne_nil (hcas (by simp))
      obtain ⟨links, hlinks⟩ := ih (first + 1) uuids.tail (fun _ => by simp)
        fun fp hfp => hids fp (List.mem_cons_of_mem _ hfp)
      refine ⟨⟨first, uuids.headD 0, some [caNameMetadataAttribute ca.name,
        templateNameMetadataAttribute cert.template], discoveryId, id⟩ :: links, ?_⟩
      rw [discoveryCertificates, discoveryCertificate, hid, getCertificateMeta, hlinks]
      rfl

end AdcsConnector
