/-
Migration 0002: from the store in which every row of `discovery_certificate`
holds its own copy of the certificate, to the store of `Models.lean`.

* `LegacyStore`: the two tables before the migration. A row may repeat a
  content, within or across discoveries, and may name a discovery that is gone;
* `migrate`: the steps of the migration in order, each raising what the
  database would raise;
* `Refines`: what the migrated store keeps of the old one. The reads are
  compared answer by answer, as rows of equal uuids come in any order;
* `migrate_refines`: the migration succeeds, and its store refines the old one;
* `consistent_of_migrate`: the store is one the connector can start from.
-/
import AdcsConnector.Store.Sweep
import AdcsConnector.Store.Read

namespace AdcsConnector

/-! ### The tables before the migration -/

/-- A row of `discovery_certificate` in migration 0001. -/
structure LegacyDiscoveryCertificate where
  id : ℕ
  uuid : UUID
  base64content : String
  discoveryId : ℤ
  metadata : Option (List MetaAttribute)
  deriving DecidableEq

/-- The tables before the migration, with their primary keys. -/
structure LegacyStore where
  discoveryHistory : List DiscoveryHistory
  discoveryCertificate : List LegacyDiscoveryCertificate
  historyId : (discoveryHistory.map (·.id)).Nodup
  linkId : (discoveryCertificate.map (·.id)).Nodup

/-- `EXISTS (SELECT 1 FROM discovery_history dh WHERE dh.id = dc.discovery_id)`. -/
def DiscoveryExists (history : List DiscoveryHistory) (discoveryId : ℤ) : Prop :=
  ∃ dh ∈ history, (dh.id : ℤ) = discoveryId

instance (history : List DiscoveryHistory) (d : ℤ) : Decidable (DiscoveryExists history d) :=
  inferInstanceAs (Decidable (∃ dh ∈ history, (dh.id : ℤ) = d))

namespace LegacyStore

variable (legacy : LegacyStore)

/-- The rows of existing discoveries. -/
def live : List LegacyDiscoveryCertificate :=
  legacy.discoveryCertificate.filter fun dc =>
    DiscoveryExists legacy.discoveryHistory dc.discoveryId

/-- The contents present in the table. -/
def contents : Set String := {content | ∃ dc ∈ legacy.discoveryCertificate,
  dc.base64content = content}

/-- SHA-256 tells the contents of the table apart. -/
def DigestsDiffer : Prop := Set.InjOn (fun content => Sha256.sha256 (utf8 content)) legacy.contents

/-- `DiscoveryCertificate.objects.filter(discovery_id=d)` on the old table. -/
def rowsOf (d : ℕ) : List LegacyDiscoveryCertificate :=
  legacy.discoveryCertificate.filter fun dc => dc.discoveryId = (d : ℤ)

end LegacyStore

/-- One item of `certificate_data`, from a row that holds its content. -/
def legacyDto (dc : LegacyDiscoveryCertificate) : DiscoveryCertificateDto :=
  ⟨dc.uuid, dc.base64content, dc.metadata⟩

/-- `get_discovery_history_data` on the old table: no join. -/
def LegacyStore.getDiscoveryHistoryData (request : DiscoveryHistoryRequest) (h : DiscoveryHistory)
    (legacy : LegacyStore) (ordered : List LegacyDiscoveryCertificate) :
    Except PyError DiscoveryHistoryResponse :=
  let totalCertificates := (legacy.rowsOf h.id).length
  if StatusValue.str h.status = StatusValue.member .inProgress then
    .ok ⟨h.name, h.uuid, h.status, [], h.metadata, 0⟩
  else
    let pageNumber := if request.pageNumber ≤ 0 then 0 else request.pageNumber - 1
    match querysetSlice ordered (pageNumber * request.itemsPerPage)
        ((pageNumber + 1) * request.itemsPerPage) with
    | .error e => .error e
    | .ok vals =>
        .ok ⟨h.name, h.uuid, h.status, vals.map legacyDto, h.metadata, totalCertificates⟩

/-! ### The migration -/

/-- A row of `discovery_certificate` from step 3 on: the new column may be
null. -/
structure BackfillRow extends LegacyDiscoveryCertificate where
  certificateId : Option ℕ
  deriving DecidableEq

/-- A row of `discovery_certificate` after step 6: the new column is not null,
the content is gone, the discovery is not yet a foreign key. -/
structure JoinRow where
  id : ℕ
  uuid : UUID
  discoveryId : ℤ
  metadata : Option (List MetaAttribute)
  certificateId : ℕ
  deriving DecidableEq

/-- The tables during the migration. -/
structure Migrating where
  certificate : List Certificate
  certificateCleanupState : List CertificateCleanupState
  discoveryHistory : List DiscoveryHistory
  discoveryCertificate : List BackfillRow

/-- `FP`, the fingerprint as an SQL expression:
`encode(sha256(convert_to(base64content,'UTF8')),'hex')`. -/
def fp (base64content : String) : String := Sha256.hexdigest (Sha256.sha256 (utf8 base64content))

/-- Steps 1 and 3: two empty tables and an empty column. -/
def createModels (legacy : LegacyStore) : Migrating where
  certificate := []
  certificateCleanupState := []
  discoveryHistory := legacy.discoveryHistory
  discoveryCertificate := legacy.discoveryCertificate.map fun dc => ⟨dc, none⟩

/-- Step 2. -/
def seedCertificateCleanupState (db : Migrating) : Migrating :=
  { db with certificateCleanupState :=
      db.certificateCleanupState ++ [⟨db.certificateCleanupState.length + 1, none⟩] }

/-- The SELECT of the INSERT in step 4: of the rows of existing discoveries,
the first of each fingerprint. -/
def LegacyStore.firstOfEach (legacy : LegacyStore) : List (String × String) :=
  (Rows.firstRows (fun dc => fp dc.base64content) (·.id) legacy.live).map fun dc =>
    (fp dc.base64content, dc.base64content)

/-- One row of the INSERT: the sequence of the new table counts from one. -/
def insertCertificate (certificate : List Certificate) (row : String × String) :
    Except PyError (List Certificate) :=
  if 64 < row.1.length then .error (.databaseError "value too long for type character varying(64)")
  else if row.1 ∈ certificate.map (·.fingerprint) then
    .error (.databaseError "duplicate key value violates unique constraint")
  else .ok (certificate ++ [⟨certificate.length + 1, row.1, row.2⟩])

/-- `SET certificate_id = c.id FROM certificate c WHERE c.fingerprint = FP`. -/
def setCertificateId (certificate : List Certificate) (dc : BackfillRow) : BackfillRow :=
  match certificate.find? fun c => c.fingerprint = fp dc.base64content with
  | some c => { dc with certificateId := some c.id }
  | none => dc

/-- The UPDATE of step 4, on every row; the foreign key added in step 3 is
checked at its end. -/
def updateCertificateId (db : Migrating) : Except PyError Migrating :=
  let rows := db.discoveryCertificate.map (setCertificateId db.certificate)
  if ∀ dc ∈ rows, ∀ id ∈ dc.certificateId, ∃ c ∈ db.certificate, c.id = id then
    .ok { db with discoveryCertificate := rows }
  else .error (.databaseError "insert or update violates foreign key constraint")

/-- The DELETE of step 4. -/
def deleteDangling (db : Migrating) : Migrating :=
  { db with discoveryCertificate :=
      db.discoveryCertificate.filter fun dc => DiscoveryExists db.discoveryHistory dc.discoveryId }

/-- Steps 5 and 6 on one row: NOT NULL, and the content dropped. -/
def alterField (dc : BackfillRow) : Except PyError JoinRow :=
  match dc.certificateId with
  | none => .error (.databaseError "column contains null values")
  | some id => .ok ⟨dc.id, dc.uuid, dc.discoveryId, dc.metadata, id⟩

/-- Step 7 on one row: the column becomes a foreign key. -/
def addDiscovery (history : List DiscoveryHistory) (dc : JoinRow) :
    Except PyError DiscoveryCertificate :=
  match history.find? fun dh => (dh.id : ℤ) = dc.discoveryId with
  | none => .error (.databaseError "insert or update violates foreign key constraint")
  | some dh => .ok ⟨dc.id, dc.uuid, dc.metadata, dh.id, dc.certificateId⟩

/-- `Migration.operations`, with the answer of the SELECT in step 4: the rows
of `firstOfEach` in any order. -/
def migrate (legacy : LegacyStore) (selected : List (String × String)) : Except PyError Store := do
  let db := seedCertificateCleanupState (createModels legacy)
  let certificate ← selected.foldlM insertCertificate db.certificate
  let db ← updateCertificateId { db with certificate := certificate }
  let db := deleteDangling db
  let rows ← db.discoveryCertificate.mapM alterField
  let links ← rows.mapM (addDiscovery db.discoveryHistory)
  return ⟨db.certificate, db.discoveryHistory, links, db.certificateCleanupState⟩

/-! ### What the migrated store keeps -/

/-- The link a row of the old table has become. -/
structure LinkOf (s : Store) (dc : LegacyDiscoveryCertificate) (l : DiscoveryCertificate) :
    Prop where
  id_eq : l.id = dc.id
  uuid_eq : l.uuid = dc.uuid
  metadata_eq : l.metadata = dc.metadata
  discoveryId_eq : (l.discoveryId : ℤ) = dc.discoveryId
  exists_certificate : ∃ c ∈ s.certificate, c.id = l.certificateId ∧
    c.base64content = dc.base64content

/-- No commit of the trace adds or drops a link. -/
def Quiet (tr : List (Pid × Event)) : Prop :=
  (∀ d links, ¬ Completes d links tr) ∧ ∀ d, ¬ Deletes d tr

/-- The migrated store, against the old one. -/
structure Refines (legacy : LegacyStore) (s : Store) : Prop where
  history : s.discoveryHistory = legacy.discoveryHistory
  links : List.Forall₂ (LinkOf s) legacy.live s.discoveryCertificate
  contents_nodup : (s.certificate.map (·.base64content)).Nodup
  mem_contents : ∀ content, content ∈ s.certificate.map (·.base64content) ↔
    ∃ dc ∈ legacy.live, dc.base64content = content
  fingerprint : ∀ c ∈ s.certificate, c.fingerprint = certificateFingerprint c.base64content
  cleanupState : s.certificateCleanupState = [⟨1, none⟩]
  linked : ∀ c ∈ s.certificate, ¬ s.Orphan c.id
  sweep : ∀ cfg s₀ tr t, s₀.store = s → (∀ p, s₀.procs p = .idle) → Runs cfg s₀ tr t → Quiet tr →
    ∀ p ids ret, (p, Event.batch ids ret) ∈ tr → ids = []
  reads : ∀ h ∈ legacy.discoveryHistory, ∀ request result,
    (∃ ordered, OrderedByUuid (s.selectRelated h.id) ordered ∧
      getDiscoveryHistoryData request h s ordered = result) ↔
    ∃ ordered, Rows.OrderBy (·.uuid) (legacy.rowsOf h.id) ordered ∧
      legacy.getDiscoveryHistoryData request h ordered = result

/-! ### The backfill -/

variable {legacy : LegacyStore} {selected : List (String × String)}

/-- The SQL expression is the fingerprint of the services. -/
lemma fp_eq (base64content : String) : fp base64content = certificateFingerprint base64content :=
  rfl

namespace LegacyStore

lemma mem_live {dc : LegacyDiscoveryCertificate} : dc ∈ legacy.live ↔
    dc ∈ legacy.discoveryCertificate ∧
      DiscoveryExists legacy.discoveryHistory dc.discoveryId := by
  simp [live]

lemma nodup_live : (legacy.live.map (·.id)).Nodup :=
  legacy.linkId.sublist (List.filter_sublist.map _)

/-- The fingerprints selected differ, so that no insert is a duplicate. -/
lemma nodup_firstOfEach (legacy : LegacyStore) : (legacy.firstOfEach.map Prod.fst).Nodup := by
  rw [firstOfEach, List.map_map]
  exact Rows.nodup_firstRows legacy.nodup_live

/-- What is selected are contents of rows of existing discoveries. -/
lemma mem_firstOfEach {row : String × String} (h : row ∈ legacy.firstOfEach) :
    row.1 = certificateFingerprint row.2 ∧ ∃ dc ∈ legacy.live, dc.base64content = row.2 := by
  obtain ⟨dc, hdc, rfl⟩ := List.mem_map.mp h
  exact ⟨fp_eq _, dc, (Rows.mem_firstRows.mp hdc).1, rfl⟩

/-- Every content of an existing discovery is selected: the row selected for
its fingerprint holds the same content. -/
lemma exists_mem_firstOfEach (hsha : legacy.DigestsDiffer)
    {dc : LegacyDiscoveryCertificate} (hdc : dc ∈ legacy.live) :
    (fp dc.base64content, dc.base64content) ∈ legacy.firstOfEach := by
  obtain ⟨dc', hdc', hfp⟩ := Rows.exists_firstRows
    (fun dc : LegacyDiscoveryCertificate => fp dc.base64content) (·.id) hdc
  have hmem := (mem_live.mp (Rows.mem_firstRows.mp hdc').1).1
  have hcontent := hsha ⟨dc', hmem, rfl⟩ ⟨dc, (mem_live.mp hdc).1, rfl⟩
    (Sha256.hexdigest_injective hfp)
  exact List.mem_map.mpr ⟨dc', hdc', by rw [hcontent]⟩

end LegacyStore

/-- The columns the INSERT gives. -/
def Certificate.columns (c : Certificate) : String × String := (c.fingerprint, c.base64content)

/-- The inserts succeed on new fingerprints that fit their column, and number
the rows from one on. -/
lemma insertCertificates_ok (certificate : List Certificate)
    (hlen : ∀ row ∈ selected, row.1.length ≤ 64)
    (hfp : ((certificate.map Certificate.columns ++ selected).map Prod.fst).Nodup)
    (hid : certificate.map (·.id) = List.range' 1 certificate.length) :
    ∃ certificate', selected.foldlM insertCertificate certificate = .ok certificate' ∧
      certificate'.map Certificate.columns = certificate.map Certificate.columns ++ selected ∧
      certificate'.map (·.id) = List.range' 1 certificate'.length := by
  induction selected generalizing certificate with
  | nil => exact ⟨certificate, rfl, (List.append_nil _).symm, hid⟩
  | cons row selected ih =>
      have hnew : row.1 ∉ certificate.map (·.fingerprint) := by
        intro hmem
        rw [List.map_append, List.map_map] at hfp
        exact (List.nodup_append.mp hfp).2.2 row.1 hmem row.1 (by simp) rfl
      have hrow := hlen row List.mem_cons_self
      have hinsert : insertCertificate certificate row =
          .ok (certificate ++ [⟨certificate.length + 1, row.1, row.2⟩]) := by
        rw [insertCertificate, if_neg (by omega), if_neg hnew]
      rw [Rows.foldlM_cons_of_ok hinsert]
      obtain ⟨certificate', hfold, hcolumns, hid'⟩ := ih
        (certificate ++ [⟨certificate.length + 1, row.1, row.2⟩])
        (fun r hr => hlen r (List.mem_cons_of_mem _ hr))
        (by simpa [Certificate.columns] using hfp) (by
          rw [List.map_append, hid, List.length_append, List.length_singleton,
            List.range'_1_concat, Nat.add_comm 1]
          rfl)
      exact ⟨certificate', hfold, by simpa [Certificate.columns] using hcolumns, hid'⟩

/-- What the INSERT of step 4 leaves in the new table. -/
structure Backfilled (legacy : LegacyStore) (certificate : List Certificate) : Prop where
  id : (certificate.map (·.id)).Nodup
  fingerprint : (certificate.map (·.fingerprint)).Nodup
  fingerprint_eq : ∀ c ∈ certificate, c.fingerprint = certificateFingerprint c.base64content
  exists_live : ∀ c ∈ certificate, ∃ dc ∈ legacy.live, dc.base64content = c.base64content
  exists_certificate : ∀ dc ∈ legacy.live, ∃ c ∈ certificate,
    c.fingerprint = fp dc.base64content ∧ c.base64content = dc.base64content

lemma exists_backfilled (hsha : legacy.DigestsDiffer)
    (hsel : selected.Perm legacy.firstOfEach) :
    ∃ certificate, selected.foldlM insertCertificate [] = .ok certificate ∧
      Backfilled legacy certificate := by
  have hnodup : (selected.map Prod.fst).Nodup :=
    (hsel.map Prod.fst).nodup_iff.mpr legacy.nodup_firstOfEach
  have hmem : ∀ row ∈ selected, row ∈ legacy.firstOfEach := fun row h => hsel.mem_iff.mp h
  have hlen : ∀ row ∈ selected, row.1.length ≤ 64 := fun row hrow => by
    rw [(LegacyStore.mem_firstOfEach (hmem row hrow)).1, certificateFingerprint_length]
  obtain ⟨certificate, hfold, hcolumns, hid⟩ :=
    insertCertificates_ok [] hlen (by simpa using hnodup) rfl
  rw [List.map_nil, List.nil_append] at hcolumns
  have hrow : ∀ c ∈ certificate, c.columns ∈ legacy.firstOfEach := fun c hc =>
    hmem _ (hcolumns ▸ List.mem_map_of_mem hc)
  refine ⟨certificate, hfold, ?_, ?_, ?_, ?_, ?_⟩
  · rw [hid]
    exact List.nodup_range'
  · rw [← hcolumns, List.map_map] at hnodup
    exact hnodup
  · exact fun c hc => (LegacyStore.mem_firstOfEach (hrow c hc)).1
  · exact fun c hc => (LegacyStore.mem_firstOfEach (hrow c hc)).2
  · intro dc hdc
    have hsel' := hsel.mem_iff.mpr (LegacyStore.exists_mem_firstOfEach hsha hdc)
    rw [← hcolumns] at hsel'
    obtain ⟨c, hc, heq⟩ := List.mem_map.mp hsel'
    exact ⟨c, hc, congrArg Prod.fst heq, congrArg Prod.snd heq⟩

/-! ### The links -/

/-- The UPDATE gives a row of an existing discovery the certificate of its
content. -/
lemma Backfilled.setCertificateId_eq {certificate : List Certificate}
    (hb : Backfilled legacy certificate) {dc : LegacyDiscoveryCertificate}
    (hdc : dc ∈ legacy.live) :
    ∃ c ∈ certificate, setCertificateId certificate ⟨dc, none⟩ = ⟨dc, some c.id⟩ ∧
      c.base64content = dc.base64content := by
  obtain ⟨c, hc, hfp, hcontent⟩ := hb.exists_certificate dc hdc
  refine ⟨c, hc, ?_, hcontent⟩
  rw [setCertificateId]
  split
  · next c' hfind =>
    have hfp' : c'.fingerprint = fp dc.base64content := by simpa using List.find?_some hfind
    rw [Rows.eq_of_key_eq hb.fingerprint (List.mem_of_find?_eq_some hfind) hc (hfp'.trans hfp.symm)]
  · next hfind => exact absurd (by simpa using hfp) (List.find?_eq_none.mp hfind c hc)

/-- The UPDATE refers to rows of the new table only, dangling rows included. -/
lemma updateCertificateId_eq (db : Migrating)
    (hnull : ∀ dc ∈ db.discoveryCertificate, dc.certificateId = none) :
    updateCertificateId db = .ok { db with
      discoveryCertificate := db.discoveryCertificate.map (setCertificateId db.certificate) } := by
  rw [updateCertificateId, if_pos]
  intro row hrow id hid
  obtain ⟨dc, hdc, rfl⟩ := List.mem_map.mp hrow
  rw [setCertificateId] at hid
  split at hid
  · next c hfind => exact ⟨c, List.mem_of_find?_eq_some hfind, by simpa using hid⟩
  · rw [hnull dc hdc] at hid
    cases hid

/-- The DELETE keeps the rows of existing discoveries, whatever the UPDATE has
written into them. -/
lemma filter_setCertificateId (certificate : List Certificate) :
    ((legacy.discoveryCertificate.map fun dc => setCertificateId certificate ⟨dc, none⟩).filter
      fun dc => DiscoveryExists legacy.discoveryHistory dc.discoveryId) =
    legacy.live.map fun dc => setCertificateId certificate ⟨dc, none⟩ := by
  have hkeep : ∀ dc, (setCertificateId certificate ⟨dc, none⟩).discoveryId = dc.discoveryId := by
    intro dc
    rw [setCertificateId]
    split <;> rfl
  rw [List.filter_map, LegacyStore.live]
  congr 1
  exact List.filter_congr fun dc _ => by simp only [Function.comp_apply, hkeep]

/-- No row of an existing discovery is null. -/
lemma Backfilled.alterField_eq {certificate : List Certificate}
    (hb : Backfilled legacy certificate) {dc : LegacyDiscoveryCertificate}
    (hdc : dc ∈ legacy.live) :
    ∃ c ∈ certificate, alterField (setCertificateId certificate ⟨dc, none⟩) =
        .ok ⟨dc.id, dc.uuid, dc.discoveryId, dc.metadata, c.id⟩ ∧
      c.base64content = dc.base64content := by
  obtain ⟨c, hc, heq, hcontent⟩ := hb.setCertificateId_eq hdc
  refine ⟨c, hc, ?_, hcontent⟩
  rw [heq]
  rfl

/-- No row of an existing discovery violates the new foreign key. -/
lemma addDiscovery_eq {history : List DiscoveryHistory} (dc : JoinRow)
    (h : DiscoveryExists history dc.discoveryId) :
    ∃ d : ℕ, addDiscovery history dc = .ok ⟨dc.id, dc.uuid, dc.metadata, d, dc.certificateId⟩ ∧
      (d : ℤ) = dc.discoveryId := by
  rw [addDiscovery]
  split
  · next hfind =>
    obtain ⟨dh, hdh, hid⟩ := h
    exact absurd (by simpa using hid) (List.find?_eq_none.mp hfind dh hdh)
  · next dh hfind => exact ⟨dh.id, rfl, by simpa using List.find?_some hfind⟩

/-- The rows left become links, one for each row of an existing discovery. -/
lemma Backfilled.exists_links {s : Store} (hb : Backfilled legacy s.certificate) :
    ∃ rows links,
      (legacy.live.map fun dc => setCertificateId s.certificate ⟨dc, none⟩).mapM alterField
        = .ok rows ∧
      rows.mapM (addDiscovery legacy.discoveryHistory) = .ok links ∧
      List.Forall₂ (LinkOf s) legacy.live links := by
  have hset : List.Forall₂ (fun dc row => dc ∈ legacy.live ∧
      row = setCertificateId s.certificate ⟨dc, none⟩) legacy.live
      (legacy.live.map fun dc => setCertificateId s.certificate ⟨dc, none⟩) := by
    rw [List.forall₂_map_right_iff, List.forall₂_same]
    exact fun dc hdc => ⟨hdc, rfl⟩
  obtain ⟨rows, hrows, hall⟩ := Rows.exists_mapM_of_forall₂ (f := alterField)
    (S := fun dc row => dc ∈ legacy.live ∧ ∃ c ∈ s.certificate,
      row = ⟨dc.id, dc.uuid, dc.discoveryId, dc.metadata, c.id⟩ ∧
        c.base64content = dc.base64content) hset (by
      rintro dc row ⟨hdc, rfl⟩
      obtain ⟨c, hc, heq, hcontent⟩ := hb.alterField_eq hdc
      exact ⟨_, heq, hdc, c, hc, rfl, hcontent⟩)
  obtain ⟨links, hlinks, hlinkOf⟩ := Rows.exists_mapM_of_forall₂ (S := LinkOf s)
    (f := addDiscovery legacy.discoveryHistory) hall (by
      rintro dc row ⟨hdc, c, hc, rfl, hcontent⟩
      obtain ⟨d, heq, hid⟩ := addDiscovery_eq
        ⟨dc.id, dc.uuid, dc.discoveryId, dc.metadata, c.id⟩ (LegacyStore.mem_live.mp hdc).2
      exact ⟨_, heq, rfl, rfl, rfl, hid, c, hc, rfl, hcontent⟩)
  exact ⟨rows, links, hrows, hlinks, hlinkOf⟩

/-- The migration succeeds. -/
lemma exists_migrate (hsha : legacy.DigestsDiffer)
    (hsel : selected.Perm legacy.firstOfEach) :
    ∃ s, migrate legacy selected = .ok s ∧ Backfilled legacy s.certificate ∧
      List.Forall₂ (LinkOf s) legacy.live s.discoveryCertificate ∧
      s.discoveryHistory = legacy.discoveryHistory ∧ s.certificateCleanupState = [⟨1, none⟩] := by
  obtain ⟨certificate, hfold, hb⟩ := exists_backfilled hsha hsel
  obtain ⟨rows, links, hrows, hlinks, hall⟩ :=
    Backfilled.exists_links (s := ⟨certificate, legacy.discoveryHistory, [], [⟨1, none⟩]⟩) hb
  refine ⟨⟨certificate, legacy.discoveryHistory, links, [⟨1, none⟩]⟩, ?_, hb,
    hall.imp fun dc l h => ⟨h.id_eq, h.uuid_eq, h.metadata_eq, h.discoveryId_eq,
      h.exists_certificate⟩, rfl, rfl⟩
  have hupdate := updateCertificateId_eq
    { seedCertificateCleanupState (createModels legacy) with certificate := certificate } (by
      intro dc hdc
      obtain ⟨dc, -, rfl⟩ := List.mem_map.mp hdc
      rfl)
  rw [migrate]
  simp only [createModels, seedCertificateCleanupState] at hupdate ⊢
  rw [hfold]
  simp only [bind, Except.bind]
  rw [hupdate]
  simp only [deleteDangling, List.map_map, Function.comp_def, filter_setCertificateId, hrows,
    hlinks]
  rfl

/-! ### The reads -/

/-- The links of a discovery, joined, show what its old rows show. -/
lemma map_certificateDto {s : Store} (hid : (s.certificate.map (·.id)).Nodup)
    {rows : List LegacyDiscoveryCertificate} {links : List DiscoveryCertificate}
    (h : List.Forall₂ (LinkOf s) rows links) :
    (links.flatMap fun l => (s.certificate.filter fun c => c.id = l.certificateId).map
      fun c => (l, c)).map certificateDto = rows.map legacyDto := by
  induction h with
  | nil => rfl
  | @cons dc l rows links hl _ ih =>
      obtain ⟨c, hc, hcid, hcontent⟩ := hl.exists_certificate
      have hdto : certificateDto (l, c) = legacyDto dc := by
        rw [certificateDto, legacyDto, hl.uuid_eq, hl.metadata_eq, hcontent]
      rw [List.flatMap_cons, List.map_append, ih, ← hcid, Rows.filter_key_eq hid hc, List.map_cons]
      simp only [List.map_cons, List.map_nil, List.singleton_append, hdto]

/-- The links of an existing discovery are its old rows. -/
lemma forall₂_linksOf {s : Store}
    (hlinks : List.Forall₂ (LinkOf s) legacy.live s.discoveryCertificate) {h : DiscoveryHistory}
    (hh : h ∈ legacy.discoveryHistory) :
    List.Forall₂ (LinkOf s) (legacy.rowsOf h.id) (s.linksOf h.id) := by
  have hrows : legacy.rowsOf h.id = legacy.live.filter fun dc => dc.discoveryId = (h.id : ℤ) := by
    rw [LegacyStore.live, List.filter_filter, LegacyStore.rowsOf]
    refine List.filter_congr fun dc _ => ?_
    by_cases heq : dc.discoveryId = h.id
    · have hexists : DiscoveryExists legacy.discoveryHistory dc.discoveryId := ⟨h, hh, heq.symm⟩
      simp [heq] at hexists ⊢
      exact hexists
    · simp [heq]
  rw [hrows, Store.linksOf]
  refine List.rel_filter (fun dc l hl => ?_) hlinks
  simp [← hl.discoveryId_eq]

/-- The response is determined by the items of the answer and their number. -/
lemma getDiscoveryHistoryData_eq_legacy {s : Store} {h : DiscoveryHistory}
    (request : DiscoveryHistoryRequest)
    (hlen : (s.linksOf h.id).length = (legacy.rowsOf h.id).length)
    {ordered : List (DiscoveryCertificate × Certificate)}
    {ordered' : List LegacyDiscoveryCertificate}
    (hdto : ordered.map certificateDto = ordered'.map legacyDto) :
    getDiscoveryHistoryData request h s ordered =
      legacy.getDiscoveryHistoryData request h ordered' := by
  have hguard : ¬ StatusValue.str h.status = StatusValue.member .inProgress := by simp
  rw [getDiscoveryHistoryData, LegacyStore.getDiscoveryHistoryData, hlen, if_neg hguard,
    if_neg hguard]
  generalize (if request.pageNumber ≤ 0 then 0 else request.pageNumber - 1) = page
  simp only [querysetSlice]
  by_cases hneg : page * request.itemsPerPage < 0 ∨ (page + 1) * request.itemsPerPage < 0
  · simp only [if_pos hneg]
  · simp only [if_neg hneg, ← Slice.slice_map, hdto]

/-- A response of the migrated store is one of the old store, and the other
way round: equal uuids leave both the same choice of order. -/
lemma reads_iff {s : Store} (hid : (s.certificate.map (·.id)).Nodup)
    (hlinks : List.Forall₂ (LinkOf s) legacy.live s.discoveryCertificate)
    {h : DiscoveryHistory} (hh : h ∈ legacy.discoveryHistory) (request : DiscoveryHistoryRequest)
    (result : Except PyError DiscoveryHistoryResponse) :
    (∃ ordered, OrderedByUuid (s.selectRelated h.id) ordered ∧
      getDiscoveryHistoryData request h s ordered = result) ↔
    ∃ ordered, Rows.OrderBy (·.uuid) (legacy.rowsOf h.id) ordered ∧
      legacy.getDiscoveryHistoryData request h ordered = result := by
  have hall := forall₂_linksOf hlinks hh
  have hdto : (s.selectRelated h.id).map certificateDto = (legacy.rowsOf h.id).map legacyDto :=
    map_certificateDto hid hall
  have hlen := hall.length_eq.symm
  constructor
  · rintro ⟨ordered, hord, rfl⟩
    have hmap : Rows.OrderBy (·.uuid) ((s.selectRelated h.id).map certificateDto)
        (ordered.map certificateDto) := .map hord
    rw [hdto] at hmap
    obtain ⟨ordered', hord', hdto'⟩ := Rows.OrderBy.map_iff.mp hmap
    exact ⟨ordered', hord', (getDiscoveryHistoryData_eq_legacy request hlen hdto'.symm).symm⟩
  · rintro ⟨ordered', hord', rfl⟩
    have hmap : Rows.OrderBy (·.uuid) ((legacy.rowsOf h.id).map legacyDto)
        (ordered'.map legacyDto) := .map hord'
    rw [← hdto] at hmap
    obtain ⟨ordered, hord, hdto'⟩ := Rows.OrderBy.map_iff.mp hmap
    exact ⟨ordered, hord, getDiscoveryHistoryData_eq_legacy request hlen hdto'⟩

/-! ### A sweep after the migration -/

/-- A state with nothing to sweep: every certificate has a link, and no batch
under way has deleted any. -/
structure State.Settled (s : State) : Prop where
  linked : ∀ c ∈ s.store.certificate, ¬ s.store.Orphan c.id
  removed : ∀ p, (s.procs p).removed = []

lemma State.Settled.orphanIds {s : State} (hs : s.Settled) (bound : ℕ) :
    s.store.orphanIds bound = [] := by
  refine List.eq_nil_iff_forall_not_mem.mpr fun id hid => ?_
  obtain ⟨-, horphan, c, hc, rfl⟩ := mem_orphanIds.mp hid
  exact hs.linked c hc horphan

/-- A step that commits no link and drops none leaves nothing to sweep. -/
lemma State.Settled.step {cfg : Settings} {s s' : State} {p : Pid} {e : Event} (hs : s.Settled)
    (h : Step cfg s (p, e) s') (hadd : ∀ d ins links, e ≠ .persisted d ins links)
    (hdrop : ∀ d dropped, e ≠ .deleted d dropped) : s'.Settled where
  linked := fun c hc horphan => by
    rw [h.store_eq] at hc horphan
    have hlinks : (e.commit s.store).discoveryCertificate = s.store.discoveryCertificate := by
      cases e with
      | persisted d ins links => exact absurd rfl (hadd d ins links)
      | deleted d dropped => exact absurd rfl (hdrop d dropped)
      | _ => rfl
    rcases Event.mem_certificate hc with hc | ⟨d, ins, links, rfl, -⟩
    · exact hs.linked c hc fun l hl => horphan l (hlinks ▸ hl)
    · exact hadd d ins links rfl
  removed := fun q => by
    by_cases hq : q = p
    · subst hq
      cases hx : s'.procs q with
      | batchDeleted bound n ids =>
          have hids := (h.batchDelete_cases hx).2.2.1
          rw [hs.orphanIds] at hids
          exact List.subperm_nil.mp hids
      | _ => rfl
    · rw [h.procs_of_ne hq]
      exact hs.removed q

/-- Until a discovery is completed or deleted, every batch is empty. -/
lemma State.Settled.run {cfg : Settings} {s s' : State} {tr : List (Pid × Event)} (hs : s.Settled)
    (hr : Runs cfg s tr s') (hquiet : Quiet tr) :
    s'.Settled ∧ ∀ p ids ret, (p, Event.batch ids ret) ∈ tr → ids = [] := by
  induction hr with
  | refl => exact ⟨hs, by simp⟩
  | @tail tr e t t' hr hst ih =>
      obtain ⟨q, e⟩ := e
      obtain ⟨hadd, hdrop⟩ := hquiet
      obtain ⟨ht, hbatch⟩ := ih ⟨fun d links ⟨p, ins, hp⟩ => hadd d links ⟨p, ins, by simp [hp]⟩,
        fun d ⟨p, dropped, hp⟩ => hdrop d ⟨p, dropped, by simp [hp]⟩⟩
      refine ⟨ht.step hst ?_ ?_, fun p ids ret hp => ?_⟩
      · rintro d ins links rfl
        exact hadd d links ⟨q, ins, by simp⟩
      · rintro d dropped rfl
        exact hdrop d ⟨q, dropped, by simp⟩
      · rcases List.mem_append.mp hp with hp | hp
        · exact hbatch p ids ret hp
        · obtain ⟨rfl, rfl⟩ := Prod.mk.inj (List.mem_singleton.mp hp)
          obtain ⟨bound, n, hx⟩ := hst.by_self
          have hremoved := ht.removed p
          rw [hx] at hremoved
          exact hremoved

/-! ### The migration refines the old store -/

/-- Every certificate of the migrated store has a link. -/
lemma Backfilled.linked {s : Store} (hb : Backfilled legacy s.certificate)
    (hlinks : List.Forall₂ (LinkOf s) legacy.live s.discoveryCertificate) :
    ∀ c ∈ s.certificate, ¬ s.Orphan c.id := by
  intro c hc horphan
  obtain ⟨dc, hdc, hcontent⟩ := hb.exists_live c hc
  obtain ⟨l, hl, hlink⟩ := Rows.exists_of_forall₂_mem_right hlinks.flip hdc
  obtain ⟨c', hc', hid, hcontent'⟩ := hlink.exists_certificate
  have hfp : c'.fingerprint = c.fingerprint := by
    rw [hb.fingerprint_eq c' hc', hb.fingerprint_eq c hc, hcontent', hcontent]
  obtain rfl := Rows.eq_of_key_eq hb.fingerprint hc' hc hfp
  exact horphan l hl hid.symm

/-- **The migration refines the old store**, when SHA-256 tells the contents of
the old table apart: it succeeds on every old store, and its store keeps what
`Refines` says. -/
theorem migrate_refines (hsha : legacy.DigestsDiffer)
    (hsel : selected.Perm legacy.firstOfEach) :
    ∃ s, migrate legacy selected = .ok s ∧ Refines legacy s := by
  obtain ⟨s, hmigrate, hb, hlinks, hhistory, hstate⟩ := exists_migrate hsha hsel
  have hlinked := hb.linked hlinks
  refine ⟨s, hmigrate, hhistory, hlinks, ?_, fun content => ?_, hb.fingerprint_eq, hstate, hlinked,
    ?_, fun h hh request result => reads_iff hb.id hlinks hh request result⟩
  · -- equal contents have equal fingerprints
    refine List.Nodup.map_on (fun c hc c' hc' heq => ?_) hb.id.of_map
    refine Rows.eq_of_key_eq hb.fingerprint hc hc' ?_
    rw [hb.fingerprint_eq c hc, hb.fingerprint_eq c' hc', heq]
  · constructor
    · intro hmem
      obtain ⟨c, hc, rfl⟩ := List.mem_map.mp hmem
      exact hb.exists_live c hc
    · rintro ⟨dc, hdc, rfl⟩
      obtain ⟨c, hc, -, hcontent⟩ := hb.exists_certificate dc hdc
      exact List.mem_map.mpr ⟨c, hc, hcontent⟩
  · rintro cfg s₀ tr t rfl hidle hr hquiet
    have hsettled : s₀.Settled := ⟨hlinked, fun p => by rw [hidle p]; rfl⟩
    exact (hsettled.run hr hquiet).2

/-- Two discoveries share `A`, one of them holds `B` twice, and two rows are left
of deleted discoveries: one with `A`, one with a content of its own. -/
def sampleLegacy : LegacyStore where
  discoveryHistory := [⟨1, 7, "a", DiscoveryStatus.completed.value, none⟩,
    ⟨2, 8, "b", DiscoveryStatus.completed.value, none⟩]
  discoveryCertificate := [⟨1, 21, "A", 1, none⟩, ⟨2, 22, "A", 2, none⟩, ⟨3, 23, "B", 1, none⟩,
    ⟨4, 24, "B", 1, none⟩, ⟨5, 25, "A", 9, none⟩, ⟨6, 26, "C", 9, none⟩]
  historyId := by decide
  linkId := by decide

lemma sampleLegacy_digestsDiffer : sampleLegacy.DigestsDiffer := by
  have hmem : ∀ content ∈ sampleLegacy.contents, content ∈ ["A", "B", "C"] := by
    rintro content ⟨dc, hdc, rfl⟩
    exact (show ∀ dc ∈ sampleLegacy.discoveryCertificate, dc.base64content ∈ ["A", "B", "C"] by
      decide) dc hdc
  have hsha : ∀ x ∈ ["A", "B", "C"], ∀ y ∈ ["A", "B", "C"],
      Sha256.sha256 (utf8 x) = Sha256.sha256 (utf8 y) → x = y := by decide +kernel
  intro x hx y hy heq
  exact hsha x (hmem x hx) y (hmem y hy) heq

theorem migrate_refines_sample : ∃ s,
    migrate sampleLegacy sampleLegacy.firstOfEach.reverse = .ok s ∧ Refines sampleLegacy s :=
  migrate_refines sampleLegacy_digestsDiffer (List.reverse_perm _)

/-- With distinct discovery uuids, the migrated store is one the connector can
start from. -/
theorem consistent_of_migrate (hsha : legacy.DigestsDiffer)
    (hsel : selected.Perm legacy.firstOfEach)
    (huuid : (legacy.discoveryHistory.map (·.uuid)).Nodup) {s : Store}
    (h : migrate legacy selected = .ok s) : s.Consistent := by
  obtain ⟨s', hmigrate, hb, hlinks, hhistory, -⟩ := exists_migrate hsha hsel
  obtain rfl : s' = s := Except.ok.inj (hmigrate.symm.trans h)
  refine ⟨hb.id, ?_, hb.fingerprint, hb.fingerprint_eq, ?_, ?_, fun l hl => ?_, fun l hl => ?_⟩
  · have hids : legacy.live.map (·.id) = s'.discoveryCertificate.map (·.id) := by
      rw [← List.forall₂_eq_eq_eq, List.forall₂_map_left_iff, List.forall₂_map_right_iff]
      exact hlinks.imp fun dc l hl => hl.id_eq.symm
    rw [← hids]
    exact legacy.nodup_live
  · rw [hhistory]
    exact legacy.historyId
  · rw [hhistory]
    exact huuid
  · obtain ⟨dc, -, hlink⟩ := Rows.exists_of_forall₂_mem_right hlinks hl
    obtain ⟨c, hc, hid, -⟩ := hlink.exists_certificate
    exact ⟨c, hc, hid⟩
  · obtain ⟨dc, hdc, hlink⟩ := Rows.exists_of_forall₂_mem_right hlinks hl
    obtain ⟨dh, hdh, hid⟩ := (LegacyStore.mem_live.mp hdc).2
    exact ⟨dh, hhistory ▸ hdh, by have := hlink.discoveryId_eq; omega⟩

end AdcsConnector
