/-
Paging through a completed discovery.

The pages are read in separate calls. Between them, and between the statements
of one call, other discoveries share, link and drop the same certificates, and
sweeps delete orphans.

* `LaterRead`: a call at any time after the completion, before a DELETE;
* `LaterRead.eq`: its response is a page of one list, fixed at the completion;
* `paging_of_completed`: the pages together are that list.
-/
import AdcsConnector.Store.Read

namespace AdcsConnector

variable {cfg : Settings} {s₀ s s' : State} {p : Pid} {tr : List (Pid × Event)}

/-- A call on discovery `d` after the state `s`, with no DELETE of `d` up to its
page query. -/
def LaterRead (cfg : Settings) (s : State) (d : ℕ) (request : DiscoveryHistoryRequest)
    (response : DiscoveryHistoryResponse) : Prop :=
  ∃ tr tr₁ tr₂ s₁ h, Runs cfg s tr s₁ ∧ h.id = d ∧ Read cfg s₁ tr₁ tr₂ request h response ∧
    ¬ Deletes d (tr ++ (tr₁ ++ tr₂))

/-- The answer to the page query when the uuids are distinct: every link once,
joined with the certificate it was written for. -/
structure LinksInOrder (s : Store) (links : List DiscoveryCertificate)
    (ordered : List (DiscoveryCertificate × Certificate)) : Prop where
  links : (ordered.map Prod.fst).Perm links
  sorted : ordered.Pairwise fun v w => v.1.uuid < w.1.uuid
  certificate : ∀ v ∈ ordered, v.2 ∈ s.certificate ∧ v.2.id = v.1.certificateId

/-- Distinct uuids leave one answer to the page query. -/
lemma Store.Consistent.nodup_selectRelated {s : Store} (h : s.Consistent) {d : ℕ}
    (hnodup : ((s.linksOf d).map (·.uuid)).Nodup) :
    ((s.selectRelated d).map fun v => v.1.uuid).Nodup := by
  rw [← h.selectRelated_fst, List.map_map] at hnodup
  exact hnodup

lemma Store.Consistent.linksInOrder {s : Store} (h : s.Consistent) {d : ℕ}
    (hnodup : ((s.linksOf d).map (·.uuid)).Nodup)
    {ordered : List (DiscoveryCertificate × Certificate)}
    (hord : OrderedByUuid (s.selectRelated d) ordered) :
    LinksInOrder s (s.linksOf d) ordered where
  links := h.selectRelated_fst d ▸ hord.perm.map Prod.fst
  sorted := by
    have hne : ordered.Pairwise fun v w => v.1.uuid ≠ w.1.uuid := List.pairwise_map.mp
      ((hord.perm.map _).nodup_iff.mpr (h.nodup_selectRelated hnodup))
    exact hord.sorted.imp₂ (fun v w => lt_of_le_of_ne) hne
  certificate := fun v hv => (Store.mem_selectRelated.mp (hord.perm.mem_iff.mp hv)).2

/-- The response of a later call: the row as it was completed, and a page of
the links in order. -/
lemma LaterRead.eq {n₀ : ℕ} (hl : LifeCycle n₀ s) (hinv : Inv s) {r : DiscoveryHistory}
    (hmem : r ∈ s.store.discoveryHistory) (hstatus : r.status = DiscoveryStatus.completed.value)
    (hnodup : ((s.store.linksOf r.id).map (·.uuid)).Nodup)
    {ordered : List (DiscoveryCertificate × Certificate)}
    (hord : OrderedByUuid (s.store.selectRelated r.id) ordered)
    {request : DiscoveryHistoryRequest} (hk : 1 ≤ request.itemsPerPage)
    {response : DiscoveryHistoryResponse} (h : LaterRead cfg s r.id request response) :
    response = ⟨r.name, r.uuid, r.status,
      (Slice.page ordered request.itemsPerPage.toNat request.page).map certificateDto,
      r.metadata, (s.store.linksOf r.id).length⟩ := by
  obtain ⟨tr, tr₁, tr₂, s₁, h, hr, hid, ⟨hfetched, s₂, s₃, ordered', hr₁, hr₂, hord', hget⟩,
    hdel⟩ := h
  have hkeep : ∀ {t tr'}, Runs cfg s tr' t → tr' ⊆ tr ++ (tr₁ ++ tr₂) →
      r ∈ t.store.discoveryHistory ∧ t.store.linksOf r.id = s.store.linksOf r.id ∧
        t.store.selectRelated r.id = s.store.selectRelated r.id := fun hr' hsub =>
    hl.completed_run hinv hr' hmem hstatus fun q dropped hq => hdel ⟨q, dropped, hsub hq⟩
  -- the row fetched is the row completed
  obtain rfl : h = r := Rows.eq_of_key_eq (hinv.run hr).consistent.historyId hfetched
    (hkeep hr (by simp)).1 hid
  have hcount := (hkeep (hr.trans hr₁) (by simp)).2.1
  have hjoin := (hkeep (hr.trans (hr₁.trans hr₂)) (by simp)).2.2
  rw [hjoin] at hord'
  obtain rfl := hord.eq (hinv.consistent.nodup_selectRelated hnodup) hord'
  rw [getDiscoveryHistoryData_eq hk, hcount] at hget
  exact (Except.ok.inj hget).symm

/-- What the pages of `k` links of discovery `d` show after the state `s`. -/
structure Paging (cfg : Settings) (s : State) (d k : ℕ) (links : List DiscoveryCertificate)
    (ordered : List (DiscoveryCertificate × Certificate)) : Prop where
  returns : ∀ tr t, Runs cfg s tr t → ¬ Deletes d tr → ∀ n : ℤ,
    ∃ h response, h.id = d ∧ Read cfg t [] [] ⟨n, k⟩ h response
  total : ∀ n response, LaterRead cfg s d ⟨n, k⟩ response →
    response.totalCertificatesDiscovered = links.length
  pages : ∀ responses : ℕ → DiscoveryHistoryResponse,
    (∀ i < (links.length + k - 1) / k, LaterRead cfg s d ⟨i + 1, k⟩ (responses i)) →
    (List.range ((links.length + k - 1) / k)).flatMap (fun i => (responses i).certificateData)
      = ordered.map certificateDto
  beyond : ∀ (n : ℕ) response, (links.length + k - 1) / k < n →
    LaterRead cfg s d ⟨n, k⟩ response → response.certificateData = []
  first : ∀ n : ℤ, n ≤ 0 → ∀ response response', LaterRead cfg s d ⟨n, k⟩ response →
    LaterRead cfg s d ⟨1, k⟩ response' → response = response'

/-- What is read now is what was persisted. -/
lemma selectRelated_of_persisted (h₀ : Initial s₀) (hr : Runs cfg s₀ tr s) {r : DiscoveryHistory}
    {ins : List Certificate} {links : List DiscoveryCertificate}
    (hst : Step cfg s (p, .persisted r.id ins links) s') {t : State} {tr' : List (Pid × Event)}
    (ht : Runs cfg s' tr' t) (hmem : r ∈ t.store.discoveryHistory) :
    s'.store.linksOf r.id = links ∧ t.store.linksOf r.id = links ∧
      t.store.selectRelated r.id = s'.store.selectRelated r.id := by
  obtain ⟨hlinks, r', hmem', hid, hstatus⟩ := completed_of_persisted h₀ hr hst
  have hrun := hr.tail hst
  have hkeep := (h₀.lifeCycle_of_runs hrun).completed_run (h₀.inv.run hrun) ht hmem' hstatus
    fun q dropped hq => (gone_of_runs h₀ (hrun.trans ht) (List.mem_append_right _ hq)).row r hmem
      hid.symm
  rw [hid] at hkeep
  exact ⟨hlinks, hkeep.2.1.trans hlinks, hkeep.2.2⟩

/-- **Paging loses and repeats nothing.** From a state with a completed
discovery whose links have distinct uuids, and until the discovery is deleted,
the pages of `k ≥ 1` links show every link once, in uuid order and with the
content and the metadata it was persisted with, whatever steps fall between the
calls. -/
theorem paging_of_completed (h₀ : Initial s₀) (hr : Runs cfg s₀ tr s) {r : DiscoveryHistory}
    (hmem : r ∈ s.store.discoveryHistory) (hstatus : r.status = DiscoveryStatus.completed.value)
    (hnodup : ((s.store.linksOf r.id).map (·.uuid)).Nodup) {k : ℕ} (hk : 1 ≤ k) :
    ∃ ordered, LinksInOrder s.store (s.store.linksOf r.id) ordered ∧
      Paging cfg s r.id k (s.store.linksOf r.id) ordered ∧
      ∀ tr₁ m p ins links m' tr₂, Runs cfg s₀ tr₁ m →
        Step cfg m (p, .persisted r.id ins links) m' → Runs cfg m' tr₂ s →
        LinksInOrder m'.store links ordered := by
  have hinv := h₀.inv.run hr
  have hlife := h₀.lifeCycle_of_runs hr
  obtain ⟨ordered, hord⟩ := Rows.OrderBy.exists_orderBy
    (fun v : DiscoveryCertificate × Certificate => v.1.uuid) (s.store.selectRelated r.id)
  have horder := hinv.consistent.linksInOrder hnodup hord
  have hlen : ordered.length = (s.store.linksOf r.id).length := by
    rw [← horder.links.length_eq, List.length_map]
  have hk' : (1 : ℤ) ≤ k := by exact_mod_cast hk
  have hread : ∀ {n : ℤ} {response}, LaterRead cfg s r.id ⟨n, k⟩ response → response =
      ⟨r.name, r.uuid, r.status, (Slice.page ordered k (n - 1).toNat).map certificateDto,
        r.metadata, (s.store.linksOf r.id).length⟩ := fun h =>
    h.eq hlife hinv hmem hstatus hnodup hord hk'
  refine ⟨ordered, horder, ⟨fun tr t ht hdel n => ?_, fun n response h => ?_, fun responses h => ?_,
    fun n response hn h => ?_, fun n hn response response' h h' => ?_⟩,
    fun tr₁ m p ins links m' tr₂ hr₁ hst hr₂ => ?_⟩
  · have hkeep := hlife.completed_run hinv ht hmem hstatus fun q dropped hq =>
      hdel ⟨q, dropped, hq⟩
    obtain ⟨ordered', hord'⟩ := Rows.OrderBy.exists_orderBy
      (fun v : DiscoveryCertificate × Certificate => v.1.uuid) (t.store.selectRelated r.id)
    exact ⟨r, _, rfl, hkeep.1, t, t, ordered', .refl, .refl, hord',
      getDiscoveryHistoryData_eq hk' r t.store ordered'⟩
  · rw [hread h]
  · have hpage : ∀ i ∈ List.range (((s.store.linksOf r.id).length + k - 1) / k),
        (responses i).certificateData = Slice.page (ordered.map certificateDto) k i := by
      intro i hi
      rw [hread (h i (List.mem_range.mp hi)), Slice.page_map]
      simp
    rw [List.flatMap_congr hpage, ← hlen, ← List.length_map certificateDto,
      Slice.flatMap_page_ceil _ hk]
  · rw [hread h]
    refine List.map_eq_nil_iff.mpr ((Slice.page_eq_nil_iff hk).mpr ?_)
    rw [hlen]
    exact Slice.le_mul_of_ceil_le hk (by omega)
  · rw [hread h, hread h']
    have hn' : (n - 1).toNat = 0 := by omega
    simp [hn']
  · obtain ⟨hlinks, hlinks', hjoin⟩ := selectRelated_of_persisted h₀ hr₁ hst hr₂ hmem
    rw [← hlinks]
    refine (h₀.inv.run (hr₁.tail hst)).consistent.linksInOrder ?_ (hjoin ▸ hord)
    rwa [hlinks, ← hlinks']

/-- The rows of the page query, for the first of the two sample discoveries. -/
def pairRows : List (DiscoveryCertificate × Certificate) :=
  pairLinks.zip pairCertificates.reverse

/-- The page of one link of this discovery. -/
def pairPage (i : ℕ) : DiscoveryHistoryResponse :=
  ⟨"d", 7, DiscoveryStatus.completed.value, (Slice.page pairRows 1 i).map certificateDto, none, 2⟩

/-- The page is read while the second discovery shares a certificate, or after. -/
lemma laterRead_pairPage (cfg : Settings) (i : ℕ) {tr : List (Pid × Event)} {t : State}
    (hr : Runs cfg storedState tr t) (hdel : ¬ Deletes 1 tr)
    (hrow : ⟨1, 7, "d", DiscoveryStatus.completed.value, none⟩ ∈ t.store.discoveryHistory)
    (hlinks : t.store.linksOf 1 = pairLinks) (hjoin : t.store.selectRelated 1 = pairRows) :
    LaterRead cfg storedState 1 ⟨i + 1, 1⟩ (pairPage i) := by
  refine ⟨tr, [], [], t, ⟨1, 7, "d", DiscoveryStatus.completed.value, none⟩, hr, rfl,
    ⟨hrow, t, t, pairRows, .refl, .refl, ?_, ?_⟩, by simpa using hdel⟩
  · rw [hjoin]
    exact ⟨.refl _, by decide⟩
  · rw [getDiscoveryHistoryData_eq le_rfl, hlinks]
    simp [pairPage, DiscoveryHistoryRequest.page, pairLinks]

/-- Two pages, with the end of the second discovery between them. -/
theorem paging_sample : ∃ ordered,
    Runs ⟨3600, 500⟩ emptyState (overlapCollection ++ overlapInsertion ++ overlapStorage)
      storedState ∧
    LinksInOrder storedState.store (storedState.store.linksOf 1) ordered ∧
    Runs ⟨3600, 500⟩ storedState overlapSharing sharedState ∧
    (pairPage 0).certificateData ++ (pairPage 1).certificateData =
      ordered.map certificateDto := by
  have h := overlap_stored ⟨3600, 500⟩
  have h' := (overlap_shares ⟨3600, 500⟩).runs
  obtain ⟨ordered, horder, hpaging, -⟩ := paging_of_completed (k := 1)
    (r := ⟨1, 7, "d", DiscoveryStatus.completed.value, none⟩) emptyState_initial h.runs
    List.mem_cons_self rfl (by decide) le_rfl
  refine ⟨ordered, h.runs, horder, h', ?_⟩
  have hpages := hpaging.pages pairPage fun i hi => ?_
  · exact hpages
  · rcases i with _ | i
    · exact laterRead_pairPage _ 0 .refl (by simp [Deletes]) List.mem_cons_self rfl rfl
    · obtain rfl : i = 0 := by
        have hlen : (storedState.store.linksOf 1).length = 2 := rfl
        rw [hlen] at hi
        omega
      exact laterRead_pairPage _ 1 h' (by simp [Deletes, overlapSharing, statements])
        List.mem_cons_self rfl rfl

end AdcsConnector
