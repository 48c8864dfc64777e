/-
Discoveries of before the migration, in the running system.

* `Upgraded`: a state that the connector starts from after the migration;
* `Upgraded.abandoned`: nobody has a discovery of before the migration to end;
* `State.Abandoned.kept_run`: such a discovery keeps its row, its links and their
  certificates, whatever runs, until it is deleted;
* `upgraded_discovery_reads`: its pages are those that the old version showed.
-/
import AdcsConnector.Store.Migration
import AdcsConnector.Store.Paging
import AdcsConnector.Store.Stranded

namespace AdcsConnector

variable {cfg : Settings} {s s' s₀ : State} {tr : List (Pid × Event)} {legacy : LegacyStore}
  {selected : List (String × String)} {r : DiscoveryHistory}

/-- A discovery that nobody has to end is kept as it is until it is deleted. -/
lemma State.Abandoned.kept_run (ha : s.Abandoned r.id) (hinv : Inv s) (hr : Runs cfg s tr s')
    (hmem : r ∈ s.store.discoveryHistory) (hdel : ¬ Deletes r.id tr) :
    r ∈ s'.store.discoveryHistory ∧ s'.store.linksOf r.id = s.store.linksOf r.id ∧
      s'.store.selectRelated r.id = s.store.selectRelated r.id := by
  induction hr with
  | refl => exact ⟨hmem, rfl, rfl⟩
  | @tail tr e t t' hr hst ih =>
      obtain ⟨ht, hlinks, hjoin⟩ := ih fun ⟨q, dropped, hq⟩ =>
        hdel ⟨q, dropped, List.mem_append_left _ hq⟩
      have hti := hinv.run hr
      obtain ⟨ht', hlinks'⟩ := hti.kept_step hst ht (fun dh => (ha.run hinv hr).pending e.1 dh)
        fun dropped heq => hdel ⟨e.1, dropped, List.mem_append_right _ (by simp [← heq])⟩
      have hjoin' := hti.consistent.selectRelated_eq (hti.step hst).consistent hlinks'
        fun l hl c hc hid => hti.linked_stays hst (List.mem_of_mem_filter hl) hc hid
      exact ⟨ht', hlinks'.trans hlinks, hjoin'.trans hjoin⟩

/-! ### After the migration -/

/-- A state to start from after the migration: the tables are the migrated ones, the
sequences are past the keys in them, and no activity has begun. -/
structure Upgraded (legacy : LegacyStore) (selected : List (String × String)) (s : State) :
    Prop where
  digests : legacy.DigestsDiffer
  perm : selected.Perm legacy.firstOfEach
  uuids : (legacy.discoveryHistory.map (·.uuid)).Nodup
  store : migrate legacy selected = .ok s.store
  certificateSeq_pos : 0 < s.certificateSeq
  certificate_lt : ∀ c ∈ s.store.certificate, c.id < s.certificateSeq
  history_lt : ∀ r ∈ s.store.discoveryHistory, r.id < s.historySeq ∧ r.uuid ∈ s.uuids
  link_lt : ∀ l ∈ s.store.discoveryCertificate, l.id < s.linkSeq
  queue : s.queue = []
  procs : ∀ p, s.procs p = .idle

namespace Upgraded

/-- The running system starts from the migrated tables. -/
lemma initial (h : Upgraded legacy selected s) : Initial s where
  certificateSeq_pos := h.certificateSeq_pos
  consistent := consistent_of_migrate h.digests h.perm h.uuids h.store
  certificate_lt := h.certificate_lt
  history_lt := h.history_lt
  link_lt := h.link_lt
  queue := h.queue
  procs := h.procs

/-- The migrated tables, against the old ones. -/
lemma migrated (h : Upgraded legacy selected s) :
    Backfilled legacy s.store.certificate ∧
      List.Forall₂ (LinkOf s.store) legacy.live s.store.discoveryCertificate ∧
      s.store.discoveryHistory = legacy.discoveryHistory := by
  obtain ⟨store, hmigrate, hb, hlinks, hhistory, -⟩ := exists_migrate h.digests h.perm
  obtain rfl : store = s.store := Except.ok.inj (hmigrate.symm.trans h.store)
  exact ⟨hb, hlinks, hhistory⟩

/-- The threads of before the migration are gone. -/
lemma abandoned (h : Upgraded legacy selected s) (hr : r ∈ s.store.discoveryHistory) :
    s.Abandoned r.id where
  spent := h.initial.inv.spent hr
  pending := fun p d hd => by simp [h.procs p, Proc.pending, Proc.origin] at hd

end Upgraded

/-- Every old store can be migrated and started from. -/
lemma exists_upgraded (hsha : legacy.DigestsDiffer) (hsel : selected.Perm legacy.firstOfEach)
    (huuid : (legacy.discoveryHistory.map (·.uuid)).Nodup) :
    ∃ s, Upgraded legacy selected s := by
  obtain ⟨store, hmigrate, -⟩ := exists_migrate hsha hsel
  have hlt : ∀ (l : List ℕ), ∀ n ∈ l, n < l.foldr max 0 + 1 := fun l n hn =>
    Nat.lt_succ_of_le (List.le_max_of_le hn le_rfl)
  refine ⟨⟨store, (store.certificate.map (·.id)).foldr max 0 + 1,
    (store.discoveryHistory.map (·.id)).foldr max 0 + 1,
    (store.discoveryCertificate.map (·.id)).foldr max 0 + 1, 1,
    store.discoveryHistory.map (·.uuid), [], fun _ => .idle⟩, hsha, hsel, huuid, hmigrate,
    Nat.succ_pos _, fun c hc => hlt _ _ (List.mem_map_of_mem hc),
    fun r hr => ⟨hlt _ _ (List.mem_map_of_mem hr), List.mem_map_of_mem hr⟩,
    fun l hl => hlt _ _ (List.mem_map_of_mem hl), rfl, fun _ => rfl⟩

/-- **An upgrade shows.** A discovery of before the migration, read at any time after
it and before it is deleted, whatever discoveries, deletes and sweeps run meanwhile and
between the statements of the call: the response is one that the old version gave for
the same request on the old tables. -/
theorem upgraded_discovery_reads (h₀ : Upgraded legacy selected s₀)
    (hr : r ∈ legacy.discoveryHistory) {request : DiscoveryHistoryRequest}
    {response : DiscoveryHistoryResponse} (hread : LaterRead cfg s₀ r.id request response) :
    ∃ ordered, Rows.OrderBy (·.uuid) (legacy.rowsOf r.id) ordered ∧
      legacy.getDiscoveryHistoryData request r ordered = .ok response := by
  obtain ⟨hb, hlinks, hhistory⟩ := h₀.migrated
  have hmem : r ∈ s₀.store.discoveryHistory := hhistory ▸ hr
  have hinv := h₀.initial.inv
  obtain ⟨tr, tr₁, tr₂, s₁, h, hrun, hid, ⟨hfetched, s₂, s₃, ordered, hr₁, hr₂, hord, hget⟩,
    hdel⟩ := hread
  have hkept : ∀ {t tr'}, Runs cfg s₀ tr' t → tr' ⊆ tr ++ (tr₁ ++ tr₂) →
      r ∈ t.store.discoveryHistory ∧ t.store.linksOf r.id = s₀.store.linksOf r.id ∧
        t.store.selectRelated r.id = s₀.store.selectRelated r.id := fun hr' hsub =>
    (h₀.abandoned hmem).kept_run hinv hr' hmem fun ⟨q, dropped, hq⟩ =>
      hdel ⟨q, dropped, hsub hq⟩
  obtain rfl : h = r := Rows.eq_of_key_eq (hinv.run hrun).consistent.historyId hfetched
    (hkept hrun (by simp)).1 hid
  have hcount := (hkept (hrun.trans hr₁) (by simp)).2.1
  rw [(hkept (hrun.trans (hr₁.trans hr₂)) (by simp)).2.2] at hord
  -- the count and the page are those of the migrated tables
  have hsame : getDiscoveryHistoryData request h s₀.store ordered = .ok response := by
    rw [← hget, getDiscoveryHistoryData, getDiscoveryHistoryData, hcount]
  exact (reads_iff hb.id hlinks hr request (.ok response)).mp ⟨ordered, hord, hsame⟩

/-- After the migration of the sample, its second discovery can be deleted. -/
lemma exists_deleted (h₀ : Upgraded sampleLegacy selected s₀) : ∃ s dropped,
    Runs cfg s₀ (statements [0, 0, 0, 0] ++ [(0, .deleted 2 dropped)]) s ∧
    ⟨1, 7, "a", DiscoveryStatus.completed.value, none⟩ ∈ s.store.discoveryHistory := by
  have hhistory := h₀.migrated.2.2
  have h : SoloRun cfg 0 s₀ [] s₀ :=
    ⟨.refl, fun q _ => by rw [h₀.procs q]; exact ⟨rfl, rfl, rfl, rfl, rfl⟩⟩
  have h := h.tail fun _ => .deleteBegin 8 (h₀.procs 0)
  have h := h.tail fun ha => .deleteLock ⟨2, 8, "b", DiscoveryStatus.completed.value, none⟩
    (State.set_procs_self ..) (by simp [hhistory, sampleLegacy]) rfl (ha.rowFree _)
  have h := h.tail fun _ => .deleteCascade (State.set_procs_self ..)
  have h := h.tail fun _ => .deleteRow (State.set_procs_self ..)
  have h := h.tail fun _ => .deleteCommit (State.set_procs_self ..)
    ((h₀.initial.inv.run h.runs).deleteOk (State.set_procs_self ..))
  exact ⟨_, _, h.runs, by simp [Store.deleteHistory, hhistory, sampleLegacy]⟩

/-- The first page of a sample discovery, when the other one has been deleted after the
migration. -/
theorem upgraded_discovery_reads_sample : ∃ s₀ s tr ordered response, Runs ⟨3600, 500⟩ s₀ tr s ∧
    Deletes 2 tr ∧ LaterRead ⟨3600, 500⟩ s₀ 1 ⟨1, 2⟩ response ∧
    Rows.OrderBy (·.uuid) (sampleLegacy.rowsOf 1) ordered ∧
    sampleLegacy.getDiscoveryHistoryData ⟨1, 2⟩ ⟨1, 7, "a", DiscoveryStatus.completed.value, none⟩
      ordered = .ok response := by
  obtain ⟨s₀, h₀⟩ := exists_upgraded sampleLegacy_digestsDiffer
    (List.reverse_perm sampleLegacy.firstOfEach) (by decide)
  obtain ⟨s, dropped, h, hmem⟩ := (exists_deleted h₀ :
    ∃ s dropped, Runs ⟨3600, 500⟩ s₀ (statements [0, 0, 0, 0] ++ [(0, .deleted 2 dropped)]) s ∧ _)
  obtain ⟨ordered, hord⟩ := Rows.OrderBy.exists_orderBy
    (fun v : DiscoveryCertificate × Certificate => v.1.uuid) (s.store.selectRelated 1)
  have hrow : (⟨1, 7, "a", DiscoveryStatus.completed.value, none⟩ : DiscoveryHistory) ∈
      sampleLegacy.discoveryHistory := List.mem_cons_self
  have hread : LaterRead ⟨3600, 500⟩ s₀ 1 ⟨1, 2⟩ _ :=
    ⟨_, [], [], s, _, h, rfl, ⟨hmem, s, s, ordered, .refl, .refl, hord,
      getDiscoveryHistoryData_eq (by decide) _ s.store ordered⟩, by simp [Deletes, statements]⟩
  obtain ⟨ordered', hord', hget⟩ := upgraded_discovery_reads h₀ hrow hread
  exact ⟨s₀, s, _, ordered', _, h, ⟨0, dropped, by simp⟩, hread, hord', hget⟩

end AdcsConnector
