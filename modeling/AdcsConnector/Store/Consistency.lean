/-
The commits keep a store consistent. One lemma per commit, under what the
transaction knows when it commits; that it does know it is the invariant of
`Store/Invariant.lean`.
-/
import AdcsConnector.Store.Step

namespace AdcsConnector

namespace Store

variable {s : Store}

@[simp] lemma completeRow_id (d : ℕ) (h : DiscoveryHistory) : (completeRow d h).id = h.id := by
  rw [completeRow]; split <;> rfl

@[simp] lemma completeRow_uuid (d : ℕ) (h : DiscoveryHistory) :
    (completeRow d h).uuid = h.uuid := by
  rw [completeRow]; split <;> rfl

@[simp] lemma failRow_id (u : UUID) (r : String) (h : DiscoveryHistory) :
    (failRow u r h).id = h.id := by
  rw [failRow]; split <;> rfl

@[simp] lemma failRow_uuid (u : UUID) (r : String) (h : DiscoveryHistory) :
    (failRow u r h).uuid = h.uuid := by
  rw [failRow]; split <;> rfl

lemma map_completeRow_id (d : ℕ) (l : List DiscoveryHistory) :
    (l.map (completeRow d)).map (·.id) = l.map (·.id) := by simp

lemma map_completeRow_uuid (d : ℕ) (l : List DiscoveryHistory) :
    (l.map (completeRow d)).map (·.uuid) = l.map (·.uuid) := by simp

lemma map_failRow_id (u : UUID) (r : String) (l : List DiscoveryHistory) :
    (l.map (failRow u r)).map (·.id) = l.map (·.id) := by simp

lemma map_failRow_uuid (u : UUID) (r : String) (l : List DiscoveryHistory) :
    (l.map (failRow u r)).map (·.uuid) = l.map (·.uuid) := by simp

namespace Consistent

/-- A new discovery row has no links. -/
lemma addHistory (h : s.Consistent) {row : DiscoveryHistory}
    (hid : ∀ r ∈ s.discoveryHistory, r.id ≠ row.id)
    (huuid : ∀ r ∈ s.discoveryHistory, r.uuid ≠ row.uuid) : (s.addHistory row).Consistent where
  certificateId := h.certificateId
  linkId := h.linkId
  fingerprint := h.fingerprint
  fingerprint_eq := h.fingerprint_eq
  historyId := Rows.nodup_map_append h.historyId (by simp) (by simpa using hid)
  historyUuid := Rows.nodup_map_append h.historyUuid (by simp) (by simpa using huuid)
  certificateFk := h.certificateFk
  historyFk := fun l hl => by
    obtain ⟨r, hr, heq⟩ := h.historyFk l hl
    exact ⟨r, List.mem_append_left _ hr, heq⟩

/-- A persistence commits new certificates under new fingerprints, and links to
certificates and a discovery that are there. -/
lemma persist (h : s.Consistent) {d : ℕ} {ins : List Certificate}
    {links : List DiscoveryCertificate}
    (hid : (ins.map (·.id)).Nodup) (hfp : (ins.map (·.fingerprint)).Nodup)
    (hfpeq : ∀ c ∈ ins, c.fingerprint = certificateFingerprint c.base64content)
    (hnew : ∀ c ∈ ins, ∀ c' ∈ s.certificate, c'.id ≠ c.id ∧ c'.fingerprint ≠ c.fingerprint)
    (hlink : (links.map (·.id)).Nodup)
    (hlinknew : ∀ l ∈ links, ∀ l' ∈ s.discoveryCertificate, l'.id ≠ l.id)
    (hlinks : (s.persist d ins links).LinksOk links) : (s.persist d ins links).Consistent where
  certificateId := Rows.nodup_map_append h.certificateId hid fun b hb a ha => (hnew b hb a ha).1
  linkId := Rows.nodup_map_append h.linkId hlink hlinknew
  fingerprint := Rows.nodup_map_append h.fingerprint hfp fun b hb a ha => (hnew b hb a ha).2
  fingerprint_eq := fun c hc => (List.mem_append.mp hc).elim (h.fingerprint_eq c) (hfpeq c)
  historyId := by
    show ((s.discoveryHistory.map (completeRow d)).map (·.id)).Nodup
    rw [map_completeRow_id]; exact h.historyId
  historyUuid := by
    show ((s.discoveryHistory.map (completeRow d)).map (·.uuid)).Nodup
    rw [map_completeRow_uuid]; exact h.historyUuid
  certificateFk := fun l hl => by
    rcases List.mem_append.mp hl with hl | hl
    · obtain ⟨c, hc, heq⟩ := h.certificateFk l hl
      exact ⟨c, List.mem_append_left _ hc, heq⟩
    · exact (hlinks l hl).1
  historyFk := fun l hl => by
    rcases List.mem_append.mp hl with hl | hl
    · obtain ⟨r, hr, heq⟩ := h.historyFk l hl
      exact ⟨completeRow d r, List.mem_map_of_mem hr, (completeRow_id d r).trans heq⟩
    · exact (hlinks l hl).2

lemma fail (h : s.Consistent) (u : UUID) (reason : String) : (s.fail u reason).Consistent where
  certificateId := h.certificateId
  linkId := h.linkId
  fingerprint := h.fingerprint
  fingerprint_eq := h.fingerprint_eq
  historyId := by
    show ((s.discoveryHistory.map (failRow u reason)).map (·.id)).Nodup
    rw [map_failRow_id]; exact h.historyId
  historyUuid := by
    show ((s.discoveryHistory.map (failRow u reason)).map (·.uuid)).Nodup
    rw [map_failRow_uuid]; exact h.historyUuid
  certificateFk := h.certificateFk
  historyFk := fun l hl => by
    obtain ⟨r, hr, heq⟩ := h.historyFk l hl
    exact ⟨failRow u reason r, List.mem_map_of_mem hr, (failRow_id u reason r).trans heq⟩

/-- A cascade that has dropped every link of the discovery leaves none behind. -/
lemma deleteHistory (h : s.Consistent) {d : ℕ} {dropped : List ℕ}
    (hfk : ∀ l ∈ (s.deleteHistory d dropped).discoveryCertificate, l.discoveryId ≠ d) :
    (s.deleteHistory d dropped).Consistent where
  certificateId := h.certificateId
  linkId := h.linkId.sublist (List.filter_sublist.map _)
  fingerprint := h.fingerprint
  fingerprint_eq := h.fingerprint_eq
  historyId := h.historyId.sublist (List.filter_sublist.map _)
  historyUuid := h.historyUuid.sublist (List.filter_sublist.map _)
  certificateFk := fun l hl => h.certificateFk l (List.mem_of_mem_filter hl)
  historyFk := fun l hl => by
    obtain ⟨r, hr, heq⟩ := h.historyFk l (List.mem_of_mem_filter hl)
    refine ⟨r, List.mem_filter.mpr ⟨hr, ?_⟩, heq⟩
    simpa [heq] using hfk l hl

lemma saveState (h : s.Consistent) (st : CertificateCleanupState) :
    (s.saveState st).Consistent :=
  ⟨h.certificateId, h.linkId, h.fingerprint, h.fingerprint_eq, h.historyId, h.historyUuid,
    h.certificateFk, h.historyFk⟩

/-- A batch removes certificates without links only. -/
lemma removeCertificates (h : s.Consistent) {ids : List ℕ}
    (hfk : ∀ l ∈ s.discoveryCertificate, l.certificateId ∉ ids) :
    (s.removeCertificates ids).Consistent where
  certificateId := h.certificateId.sublist (List.filter_sublist.map _)
  linkId := h.linkId
  fingerprint := h.fingerprint.sublist (List.filter_sublist.map _)
  fingerprint_eq := fun c hc => h.fingerprint_eq c (List.mem_of_mem_filter hc)
  historyId := h.historyId
  historyUuid := h.historyUuid
  certificateFk := fun l hl => by
    obtain ⟨c, hc, heq⟩ := h.certificateFk l hl
    refine ⟨c, List.mem_filter.mpr ⟨hc, ?_⟩, heq⟩
    simpa [heq] using hfk l hl
  historyFk := h.historyFk

end Consistent

end Store

end AdcsConnector
