/-
The shared certificate store is safe under every interleaving.

* `SoloRun`: a run of one activity while no other is in its way;
* `GroupRun`: a run of the activities of a list; `overlap` is one of two discoveries
  of a certificate, of which one is deleted while a sweep runs;
* `StoreSafe`: a committed store with distinct and correct fingerprints and no
  dangling link, in which no statement of a persistence can raise by itself and
  no deferred foreign key can be violated;
* `storeSafe_of_runs`: every state reached from a consistent store is safe.
-/
import AdcsConnector.Store.Preservation

namespace AdcsConnector

variable {cfg : Settings} {s₀ s s' : State} {p : Pid} {tr : List (Pid × Event)}

/-! ### Runs of one activity -/

/-- Nothing of the activity is in the way of another one. -/
structure Proc.Quiet (x : Proc) : Prop where
  advisory : x.advisory = none
  row : x.row = none
  lease : x.lease = false
  inserted : x.inserted = []
  removed : x.removed = []

/-- Only `p` has locks or uncommitted writes. -/
def State.Alone (s : State) (p : Pid) : Prop := ∀ q, q ≠ p → (s.procs q).Quiet

namespace State.Alone

lemma grantable (h : s.Alone p) (m : Mode) : s.Grantable p m [] :=
  ⟨fun q hq => by simp [(h q hq).advisory], by simp⟩

lemma rowFree (h : s.Alone p) (d : ℕ) : s.RowFree p d :=
  fun q hq => by simp [(h q hq).row]

lemma indexFree (h : s.Alone p) (fp : String) : s.IndexFree p fp :=
  fun q hq => by simp [(h q hq).inserted, (h q hq).removed]

end State.Alone

/-- A run of one activity while nothing of the others is in its way. -/
structure SoloRun (cfg : Settings) (p : Pid) (s₀ : State) (tr : List (Pid × Event)) (s : State) :
    Prop where
  runs : Runs cfg s₀ tr s
  alone : s.Alone p

/-- A solo run takes one more step, which may rely on being alone. -/
lemma SoloRun.tail {e : Event} (h : SoloRun cfg p s₀ tr s)
    (hst : s.Alone p → Step cfg s (p, e) s') : SoloRun cfg p s₀ (tr ++ [(p, e)]) s' where
  runs := h.runs.tail (hst h.alone)
  alone := fun q hq => by
    rw [(hst h.alone).procs_of_ne hq]
    exact h.alone q hq

/-- Another activity may go on once the first one is out of its way. -/
lemma SoloRun.pass (h : SoloRun cfg p s₀ tr s) (hquiet : (s.procs p).Quiet) (q : Pid) :
    SoloRun cfg q s₀ tr s where
  runs := h.runs
  alone := fun r _ => by
    by_cases hr : r = p
    · rwa [hr]
    · exact h.alone r hr

/-! ### A discovery, from the request to its commit -/

/-- An empty store, and no activity begun. -/
def emptyState : State where
  store := ⟨[], [], [], []⟩
  certificateSeq := 1
  historySeq := 1
  linkSeq := 1
  cleanupSeq := 1
  uuids := []
  queue := []
  procs := fun _ => .idle

lemma emptyState_initial : Initial emptyState := by
  refine ⟨?_, ⟨?_, ?_, ?_, ?_, ?_, ?_, ?_, ?_⟩, ?_, ?_, ?_, rfl, fun _ => rfl⟩ <;> simp [emptyState]

def sampleAuthority : AuthorityData :=
  ⟨"Test CA", "Test CA", "ca.example.local", "ca.example.local\\Test CA", "", .none, .none,
    .none, .none⟩

/-- One certificate from one authority. -/
def sampleCollected : Collected :=
  ⟨[sampleAuthority], [⟨"WebServer", "abc"⟩], fun _ => by simp⟩

def sampleRow : DiscoveryHistory := ⟨1, 7, "d", DiscoveryStatus.inProgress.value, none⟩

def sampleCertificate : Certificate := ⟨1, certificateFingerprint "abc", "abc"⟩

def sampleLink : DiscoveryCertificate :=
  ⟨1, 3, some [caNameMetadataAttribute "Test CA", templateNameMetadataAttribute "WebServer"], 1, 1⟩

lemma sample_links : discoveryCertificates 1 sampleCollected.cas
    (idByFp [sampleCertificate] (Dict.keys (uniqueCertificates sampleCollected.totalCertificates)))
    1 [3] sampleCollected.totalCertificates = .ok [sampleLink] := by
  have hkeys : Dict.keys (uniqueCertificates sampleCollected.totalCertificates) =
      [certificateFingerprint "abc"] := rfl
  have hids : idByFp [sampleCertificate] [certificateFingerprint "abc"] =
      [(certificateFingerprint "abc", 1)] := by
    simp [idByFp, sampleCertificate, Dict.ofPairs, Dict.insert]
  rw [hkeys, hids]
  simp only [sampleCollected, discoveryCertificates, discoveryCertificate, Dict.get?]
  simp [getCertificateMeta, sampleLink, sampleAuthority, bind, Except.bind, pure, Except.pure]

/-- The trace of a request for a discovery. -/
def sampleCreation : List (Pid × Event) :=
  List.replicate 3 (0, .statement) ++ [(0, .created sampleRow)]

/-- The trace of its thread. -/
def sampleThread : List (Pid × Event) :=
  List.replicate 9 (0, .statement) ++ [(0, .persisted 1 [sampleCertificate] [sampleLink])]

/-- The store the discovery leaves. -/
def sampleStore : Store where
  certificate := [sampleCertificate]
  discoveryHistory := [⟨1, 7, "d", DiscoveryStatus.completed.value, none⟩]
  discoveryCertificate := [sampleLink]
  certificateCleanupState := []

lemma sample_linksOk : sampleStore.LinksOk [sampleLink] := by
  simp [Store.LinksOk, sampleStore, sampleLink, sampleCertificate]

/-- The discovery runs to its end. -/
lemma sample_run (cfg : Settings) : ∃ s,
    SoloRun cfg 0 emptyState (sampleCreation ++ sampleThread) s ∧
    s.store = sampleStore ∧ s.queue = [] ∧ s.procs 0 = .completed sampleRow sampleCollected ∧
    ∀ q, q ≠ 0 → s.procs q = .idle := by
  have h : SoloRun cfg 0 emptyState [] emptyState := ⟨.refl, fun q hq => ⟨rfl, rfl, rfl, rfl, rfl⟩⟩
  have h := h.tail fun _ => .createBegin ⟨"d", "PyADCS-WinRM"⟩ rfl
  have h := h.tail fun _ => .createCheck rfl rfl (by simp [emptyState])
  have h := h.tail fun _ => .createSave 7 rfl (by simp [emptyState])
  have h := h.tail fun _ => .createCommit (show _ = Proc.createSaved sampleRow from rfl)
  have h := h.tail fun _ => .threadGet sampleRow rfl (by simp [emptyState, Store.addHistory]) rfl
  have h := h.tail fun _ => .collect sampleCollected rfl
  have h := h.tail fun _ => .persistBegin rfl
  have h := h.tail fun ha => .persistLock rfl (show _ = [] ++ 0 :: [] from rfl)
    (ha.grantable _)
  have h := h.tail fun ha => .selectForUpdate rfl
    ⟨sampleRow, by simp [emptyState, Store.addHistory], rfl⟩ (ha.rowFree _)
  have h := h.tail fun ha => .insertNew
    (show _ = Proc.inserting _ _ [(certificateFingerprint "abc", "abc")] [] from rfl)
    (by simp [State.visible, Store.addHistory, emptyState, Proc.inserted])
    (ha.indexFree _)
  have h := h.tail fun _ => .selectIds rfl
  have h := h.tail fun _ => .link [3] rfl rfl (show _ = Except.ok [sampleLink] from sample_links)
  have h := h.tail fun _ => .save rfl
    ⟨sampleRow, by simp [emptyState, Store.addHistory], rfl⟩
  have h := h.tail fun _ => .persistCommit rfl sample_linksOk
  exact ⟨_, h, rfl, rfl, rfl, fun q hq => by simp [State.set_procs_of_ne, hq, emptyState]⟩

/-! ### Runs of several activities -/

/-- A run of the activities of a list. -/
structure GroupRun (cfg : Settings) (ps : List Pid) (s₀ : State) (tr : List (Pid × Event))
    (s : State) : Prop where
  runs : Runs cfg s₀ tr s
  idle : ∀ q ∉ ps, s.procs q = .idle

namespace GroupRun

variable {ps : List Pid} {e : Event}

/-- The run takes one more step. -/
lemma tail (h : GroupRun cfg ps s₀ tr s) (hp : p ∈ ps) (hst : Step cfg s (p, e) s') :
    GroupRun cfg ps s₀ (tr ++ [(p, e)]) s' where
  runs := h.runs.tail hst
  idle q hq := by
    rw [hst.procs_of_ne (fun heq => hq (by rw [heq]; exact hp))]
    exact h.idle q hq

/-- What holds of the activities of the list, and of an idle one, holds of all. -/
lemma forall_ne (h : GroupRun cfg ps s₀ tr s) {P : Proc → Prop} (hidle : P .idle)
    (hps : ∀ q ∈ ps, q ≠ p → P (s.procs q)) (q : Pid) (hq : q ≠ p) : P (s.procs q) := by
  by_cases hmem : q ∈ ps
  · exact hps q hmem hq
  · rw [h.idle q hmem]
    exact hidle

/-- A lock that no activity of the list holds in a conflicting mode. -/
lemma grantable (h : GroupRun cfg ps s₀ tr s) {m : Mode}
    (hps : ∀ q ∈ ps, q ≠ p → ∀ m' ∈ (s.procs q).advisory, ¬ m.Conflicts m') :
    s.Grantable p m [] :=
  ⟨h.forall_ne (P := fun x => ∀ m' ∈ x.advisory, ¬ m.Conflicts m') (fun _ h => nomatch h) hps,
    by simp⟩

lemma rowFree (h : GroupRun cfg ps s₀ tr s) {d : ℕ}
    (hps : ∀ q ∈ ps, q ≠ p → (s.procs q).row ≠ some d) : s.RowFree p d :=
  h.forall_ne (P := fun x => x.row ≠ some d) (by simp [Proc.row]) hps

lemma indexFree (h : GroupRun cfg ps s₀ tr s) (fp : String)
    (hps : ∀ q ∈ ps, q ≠ p → (s.procs q).inserted = [] ∧ (s.procs q).removed = []) :
    s.IndexFree p fp := fun q hq => by
  obtain ⟨hinserted, hremoved⟩ := h.forall_ne (P := fun x => x.inserted = [] ∧ x.removed = [])
    ⟨rfl, rfl⟩ hps q hq
  simp [hinserted, hremoved]

lemma leaseFree (h : GroupRun cfg ps s₀ tr s)
    (hps : ∀ q ∈ ps, q ≠ p → (s.procs q).lease = false) : s.LeaseFree p :=
  h.forall_ne (P := fun x => x.lease = false) rfl hps

/-- A run begins anew where it has come to. -/
lemma rest (h : GroupRun cfg ps s₀ tr s) : GroupRun cfg ps s [] s := ⟨.refl, h.idle⟩

lemma trans {tr' : List (Pid × Event)} (h : GroupRun cfg ps s₀ tr s)
    (h' : GroupRun cfg ps s tr' s') : GroupRun cfg ps s₀ (tr ++ tr') s' :=
  ⟨h.runs.trans h'.runs, h'.idle⟩

/-- A state is given by its activities and the rest. -/
lemma congr (h : GroupRun cfg ps s₀ tr s) (hprocs : ∀ q, s.procs q = s'.procs q)
    (hrest : { s with procs := s'.procs } = s') : GroupRun cfg ps s₀ tr s' := by
  rw [← hrest, ← show s.procs = s'.procs from funext hprocs]
  exact h

end GroupRun

/-! ### Two discoveries, a DELETE and a sweep -/

/-- The two certificates of the first discovery; the second one collects `abc`, too. -/
def pairCollected : Collected :=
  ⟨[sampleAuthority], [⟨"WebServer", "abc"⟩, ⟨"User", "abd"⟩], fun _ => by simp⟩

def secondRow : DiscoveryHistory := ⟨2, 8, "e", DiscoveryStatus.inProgress.value, none⟩

/-- The certificates, in the order of their fingerprints. -/
def pairCertificates : List Certificate :=
  [⟨1, certificateFingerprint "abd", "abd"⟩, ⟨2, certificateFingerprint "abc", "abc"⟩]

lemma fingerprint_abc_ne : certificateFingerprint "abc" ≠ certificateFingerprint "abd" := by
  decide +kernel

lemma newCertificates_pair : newCertificates pairCollected.totalCertificates =
    [(certificateFingerprint "abd", "abd"), (certificateFingerprint "abc", "abc")] := by
  decide +kernel

/-- The statements of some activities, one after the other. -/
def statements (ps : List Pid) : List (Pid × Event) := ps.map fun p => (p, .statement)

/-- Both discoveries are requested, and collect what they find. -/
def overlapCollection : List (Pid × Event) :=
  statements [0, 1, 0, 1, 0] ++ [(0, .created sampleRow)] ++ statements [1] ++
    [(1, .created secondRow)] ++ statements [0, 1, 0, 1]

/-- Both persist at once, up to the entry of `abc` that the second one waits for. -/
def overlapInsertion : List (Pid × Event) := statements [0, 0, 1, 1, 0, 1, 0, 0]

/-- Both discoveries have collected. -/
def collectedState : State where
  store := ⟨[], [sampleRow, secondRow], [], []⟩
  certificateSeq := 1
  historySeq := 3
  linkSeq := 1
  cleanupSeq := 1
  uuids := [8, 7]
  queue := []
  procs
    | 0 => .collected sampleRow pairCollected
    | 1 => .collected secondRow sampleCollected
    | _ => .idle

lemma overlap_collects (cfg : Settings) :
    GroupRun cfg [0, 1, 2, 3, 4] emptyState overlapCollection collectedState := by
  have h : GroupRun cfg [0, 1, 2, 3, 4] emptyState [] emptyState :=
    ⟨.refl, fun _ _ => rfl⟩
  have h := h.tail (p := 0) (by decide) (.createBegin ⟨"d", "PyADCS-WinRM"⟩ rfl)
  have h := h.tail (p := 1) (by decide) (.createBegin ⟨"e", "PyADCS-WinRM"⟩ rfl)
  have h := h.tail (p := 0) (by decide) (.createCheck rfl rfl (by simp [emptyState]))
  have h := h.tail (p := 1) (by decide) (.createCheck rfl rfl (by simp [emptyState]))
  have h := h.tail (p := 0) (by decide) (.createSave 7 rfl (by simp [emptyState]))
  have h := h.tail (p := 0) (by decide)
    (.createCommit (show _ = Proc.createSaved sampleRow from rfl))
  have h := h.tail (p := 1) (by decide) (.createSave 8 rfl (by simp [emptyState]))
  have h := h.tail (p := 1) (by decide)
    (.createCommit (show _ = Proc.createSaved secondRow from rfl))
  have h := h.tail (p := 0) (by decide) (.threadGet sampleRow rfl
    (show sampleRow ∈ [sampleRow, secondRow] from by simp) rfl)
  have h := h.tail (p := 1) (by decide) (.threadGet secondRow rfl
    (show secondRow ∈ [sampleRow, secondRow] from by simp) rfl)
  have h := h.tail (p := 0) (by decide) (.collect pairCollected rfl)
  have h := h.tail (p := 1) (by decide) (.collect sampleCollected rfl)
  exact h.congr (fun q => by rcases q with _ | _ | q <;> rfl) rfl

/-- The first discovery has inserted both certificates, and the second one comes to the
entry of `abc`. -/
def waitingState : State where
  store := ⟨[], [sampleRow, secondRow], [], []⟩
  certificateSeq := 3
  historySeq := 3
  linkSeq := 1
  cleanupSeq := 1
  uuids := [8, 7]
  queue := []
  procs
    | 0 => .inserting sampleRow pairCollected [] pairCertificates
    | 1 => .inserting secondRow sampleCollected [(certificateFingerprint "abc", "abc")] []
    | _ => .idle

lemma overlap_waits (cfg : Settings) : GroupRun cfg [0, 1, 2, 3, 4] emptyState
    (overlapCollection ++ overlapInsertion) waitingState := by
  have h := overlap_collects cfg
  have h := h.tail (p := 0) (by decide) (.persistBegin rfl)
  have h := h.tail (p := 0) (by decide) (.persistLock rfl (show _ = [] ++ 0 :: [] from rfl)
    (h.grantable (by decide)))
  have h := h.tail (p := 1) (by decide) (.persistBegin rfl)
  have h := h.tail (p := 1) (by decide) (.persistLock rfl (show _ = [] ++ 1 :: [] from rfl)
    (h.grantable (by decide)))
  have h := h.tail (p := 0) (by decide) (.selectForUpdate rfl
    ⟨sampleRow, by simp [collectedState], rfl⟩ (h.rowFree (by decide)))
  have h := h.tail (p := 1) (by decide) (.selectForUpdate rfl
    ⟨secondRow, by simp [collectedState], rfl⟩ (h.rowFree (by decide)))
  rw [newCertificates_pair] at h
  have h := h.tail (p := 0) (by decide) (.insertNew rfl
    (show ∀ cert ∈ ([] : List Certificate), cert.fingerprint ≠ _ from List.forall_mem_nil _)
    (h.indexFree _ (by decide)))
  have h := h.tail (p := 0) (by decide) (.insertNew rfl
    (show ∀ cert ∈ pairCertificates.take 1, cert.fingerprint ≠ certificateFingerprint "abc" from by
      simp [pairCertificates, fingerprint_abc_ne.symm])
    (h.indexFree _ (by decide)))
  exact h.congr (fun q => by rcases q with _ | _ | q <;> rfl) rfl

def pairLinks : List DiscoveryCertificate :=
  [⟨1, 3, some [caNameMetadataAttribute "Test CA", templateNameMetadataAttribute "WebServer"],
      1, 2⟩,
    ⟨2, 4, some [caNameMetadataAttribute "Test CA", templateNameMetadataAttribute "User"], 1, 1⟩]

lemma pair_links : discoveryCertificates 1 pairCollected.cas
    (idByFp pairCertificates (Dict.keys (uniqueCertificates pairCollected.totalCertificates)))
    1 [3, 4] pairCollected.totalCertificates = .ok pairLinks := by
  decide +kernel

/-- The first discovery is stored, and the second one has found its entry. -/
def storedState : State where
  store := ⟨pairCertificates, [⟨1, 7, "d", DiscoveryStatus.completed.value, none⟩, secondRow],
    pairLinks, []⟩
  certificateSeq := 3
  historySeq := 3
  linkSeq := 3
  cleanupSeq := 1
  uuids := [8, 7]
  queue := []
  procs
    | 0 => .completed sampleRow pairCollected
    | 1 => .inserting secondRow sampleCollected [(certificateFingerprint "abc", "abc")] []
    | _ => .idle

/-- The rest of the first persistence. -/
def overlapStorage : List (Pid × Event) :=
  statements [0, 0, 0] ++ [(0, .persisted 1 pairCertificates pairLinks)]

lemma overlap_stored (cfg : Settings) : GroupRun cfg [0, 1, 2, 3, 4] emptyState
    (overlapCollection ++ overlapInsertion ++ overlapStorage) storedState := by
  have h := overlap_waits cfg
  have h := h.tail (p := 0) (by decide) (.selectIds rfl)
  have h := h.tail (p := 0) (by decide) (.link [3, 4] rfl rfl
    (show _ = Except.ok pairLinks from pair_links))
  have h := h.tail (p := 0) (by decide) (.save rfl ⟨sampleRow, by simp [waitingState], rfl⟩)
  have h := h.tail (p := 0) (by decide) (.persistCommit rfl (by
    simp [Store.LinksOk, Store.persist, pairLinks, pairCertificates, waitingState, secondRow,
      sampleRow, Store.completeRow]))
  exact h.congr (fun q => by rcases q with _ | _ | q <;> rfl) rfl

/-- The link of the second discovery to the certificate of the first. -/
def secondLink : DiscoveryCertificate :=
  ⟨3, 5, some [caNameMetadataAttribute "Test CA", templateNameMetadataAttribute "WebServer"], 2, 2⟩

lemma second_links : discoveryCertificates 2 sampleCollected.cas
    (idByFp pairCertificates (Dict.keys (uniqueCertificates sampleCollected.totalCertificates)))
    3 [5] sampleCollected.totalCertificates = .ok [secondLink] := by
  decide +kernel

/-- Both discoveries are stored. -/
def sharedState : State where
  store := ⟨pairCertificates, [⟨1, 7, "d", DiscoveryStatus.completed.value, none⟩,
    ⟨2, 8, "e", DiscoveryStatus.completed.value, none⟩], pairLinks ++ [secondLink], []⟩
  certificateSeq := 4
  historySeq := 3
  linkSeq := 4
  cleanupSeq := 1
  uuids := [8, 7]
  queue := []
  procs
    | 0 => .completed sampleRow pairCollected
    | 1 => .completed secondRow sampleCollected
    | _ => .idle

/-- The rest of the second persistence. -/
def overlapSharing : List (Pid × Event) :=
  statements [1, 1, 1, 1] ++ [(1, .persisted 2 [] [secondLink])]

lemma overlap_shares (cfg : Settings) :
    GroupRun cfg [0, 1, 2, 3, 4] storedState overlapSharing sharedState := by
  have h := (overlap_stored cfg).rest
  have h := h.tail (p := 1) (by decide) (.insertConflict rfl
    ⟨⟨2, certificateFingerprint "abc", "abc"⟩,
      show _ ∈ pairCertificates ++ [] from by simp [pairCertificates], rfl⟩
    (h.indexFree _ (by decide)))
  have h := h.tail (p := 1) (by decide) (.selectIds rfl)
  have h := h.tail (p := 1) (by decide) (.link [5] rfl rfl
    (show _ = Except.ok [secondLink] from second_links))
  have h := h.tail (p := 1) (by decide) (.save rfl ⟨secondRow, by simp [storedState], rfl⟩)
  have h := h.tail (p := 1) (by decide) (.persistCommit rfl (by
    simp [Store.LinksOk, Store.persist, secondLink, pairCertificates, storedState, secondRow,
      Store.completeRow]))
  exact h.congr (fun q => by rcases q with _ | _ | q <;> rfl) rfl

lemma overlap_shared (cfg : Settings) : GroupRun cfg [0, 1, 2, 3, 4] emptyState
    (overlapCollection ++ overlapInsertion ++ overlapStorage ++ overlapSharing) sharedState :=
  (overlap_stored cfg).trans (overlap_shares cfg)

def failedRow : DiscoveryHistory := ⟨3, 9, "f", DiscoveryStatus.inProgress.value, none⟩

/-- The first discovery is deleted while a third one fails and a sweep removes the
certificate that has no link any more. -/
def overlapRemoval : List (Pid × Event) :=
  statements [2, 2, 4, 4, 4] ++ [(4, .created failedRow)] ++ statements [3, 2, 3, 2, 3] ++
    [(2, .deleted 1 [1, 2])] ++ statements [4, 3, 3] ++ [(4, .raised "timeout"),
      (3, .claimed 0 2 ⟨1, some 0⟩)] ++ statements [3, 4, 3, 3] ++ [(4, .failed 3 9 "timeout"),
      (3, .batch [1] (some 1))]

/-- The state that is left. -/
def overlapState : State where
  store := ⟨[⟨2, certificateFingerprint "abc", "abc"⟩],
    [⟨2, 8, "e", DiscoveryStatus.completed.value, none⟩,
      ⟨3, 9, "f", DiscoveryStatus.failed.value, some [failedReasonMetadataAttribute "timeout"]⟩],
    [secondLink], [⟨1, some 0⟩]⟩
  certificateSeq := 4
  historySeq := 4
  linkSeq := 4
  cleanupSeq := 2
  uuids := [9, 8, 7]
  queue := []
  procs
    | 0 => .completed sampleRow pairCollected
    | 1 => .completed secondRow sampleCollected
    | 2 => .ended
    | 3 => .swept 1
    | 4 => .ended
    | _ => .idle

/-- The trace of it all. -/
def overlap : List (Pid × Event) :=
  overlapCollection ++ overlapInsertion ++ overlapStorage ++ overlapSharing ++ overlapRemoval

lemma overlap_run : GroupRun ⟨3600, 500⟩ [0, 1, 2, 3, 4] emptyState overlap overlapState := by
  have h := overlap_shared ⟨3600, 500⟩
  have h := h.tail (p := 2) (by decide) (.deleteBegin 7 rfl)
  have h := h.tail (p := 2) (by decide) (.deleteLock
    ⟨1, 7, "d", DiscoveryStatus.completed.value, none⟩ rfl (by simp [sharedState]) rfl
    (h.rowFree (by decide)))
  have h := h.tail (p := 4) (by decide) (.createBegin ⟨"f", "PyADCS-WinRM"⟩ rfl)
  have h := h.tail (p := 4) (by decide) (.createCheck rfl rfl (by simp [sharedState]))
  have h := h.tail (p := 4) (by decide) (.createSave 9 rfl (by simp [sharedState]))
  have h := h.tail (p := 4) (by decide)
    (.createCommit (show _ = Proc.createSaved failedRow from rfl))
  have h := h.tail (p := 3) (by decide) (.claimBegin 0 rfl)
  have h := h.tail (p := 2) (by decide) (.deleteCascade rfl)
  have h := h.tail (p := 3) (by decide) (.claimLock rfl rfl (h.grantable (by decide)))
  have h := h.tail (p := 2) (by decide) (.deleteRow rfl)
  have h := h.tail (p := 3) (by decide) (.claimRead rfl (h.leaseFree (by decide)))
  have h := h.tail (p := 2) (by decide)
    (.deleteCommit (show _ = Proc.deleteDeleted _ [1, 2] from rfl)
    (show ∀ l ∈ [secondLink], l.discoveryId ≠ 1 from by simp [secondLink]))
  have h := h.tail (p := 4) (by decide)
    (.threadGet failedRow rfl (show _ ∈ [_, failedRow] from by simp) rfl)
  have h := h.tail (p := 3) (by decide) (.claimSave rfl (show leaseDue _ _ none from by decide))
  have h := h.tail (p := 3) (by decide) (.claimBound rfl)
  have h := h.tail (p := 4) (by decide) (.raise "timeout" (show _ = some failedRow from rfl))
  have h := h.tail (p := 3) (by decide)
    (.claimCommit (show _ = Proc.claimBounded 0 ⟨1, some 0⟩ 2 from rfl))
  have h := h.tail (p := 3) (by decide) (.batchBegin rfl)
  have h := h.tail (p := 4) (by decide) (.failUpdate rfl
    ⟨failedRow, show _ ∈ [_, failedRow] from by simp, rfl, h.rowFree (by decide)⟩)
  have h := h.tail (p := 3) (by decide) (.batchLock rfl (show _ = [] ++ 3 :: [] from rfl)
    (h.grantable (by decide)))
  have h := h.tail (p := 3) (by decide)
    (.batchDelete [1] rfl (show List.Subperm [1] [1] from .refl _) rfl)
  have h := h.tail (p := 4) (by decide) (.failCommit rfl)
  have h := h.tail (p := 3) (by decide) (.batchLast rfl
    (show ∀ l ∈ [secondLink], l.certificateId ∉ [1] from by simp [secondLink]) (by decide))
  exact h.congr (fun q => by rcases q with _ | _ | _ | _ | _ | q <;> rfl) rfl

/-! ### Safety -/

/-- A safe state of the shared store. -/
structure StoreSafe (cfg : Settings) (s : State) : Prop where
  fingerprint : (s.store.certificate.map (·.fingerprint)).Nodup
  fingerprint_eq :
    ∀ c ∈ s.store.certificate, c.fingerprint = certificateFingerprint c.base64content
  certificateFk : ∀ l ∈ s.store.discoveryCertificate,
    ∃ c ∈ s.store.certificate, c.id = l.certificateId
  historyFk : ∀ l ∈ s.store.discoveryCertificate,
    ∃ h ∈ s.store.discoveryHistory, h.id = l.discoveryId
  noPersistError : ∀ p e s', ¬ Step cfg s (p, .persistError e) s'
  noViolation : ∀ p s', ¬ Step cfg s (p, .foreignKeyViolation) s'

/-- No statement of a persistence raises by itself: every fingerprint has its
id when the links are built, and the row locked is there when it is saved. -/
lemma Inv.no_persistError (hinv : Inv s) (e : PyError) :
    ¬ Step cfg s (p, .persistError e) s' := by
  intro h
  have hok := hinv.ok p
  cases h with
  | @linkRaise p dh c ins ids e uuids reason hx hlinks =>
      rw [hx] at hok
      have hknows : ∀ fp ∈ fingerprints c.totalCertificates, ∃ id, Dict.get? ids fp = some id ∧
        ∃ k ∈ s.store.certificate ++ ins, k.id = id ∧ k.fingerprint = fp := hok.knows
      obtain ⟨links, hok⟩ := exists_discoveryCertificates dh.id s.linkSeq uuids c.cas_ne_nil
        fun fp hfp => (hknows fp hfp).imp fun _ h => h.1
      rw [hlinks] at hok
      cases hok
  | @saveRaise p dh c ins links reason hx hrow =>
      rw [hx] at hok
      obtain ⟨r, hr, hid⟩ := hok.row dh.id rfl
      exact hrow r hr hid

/-- No commit violates a foreign key. -/
lemma Inv.no_violation (hinv : Inv s) : ¬ Step cfg s (p, .foreignKeyViolation) s' := by
  intro h
  cases h with
  | persistViolation reason hx hfk => exact hfk (hinv.linksOk hx)
  | deleteViolation hx hfk => exact hfk (hinv.deleteOk hx)
  | batchViolation hx hfk => exact hfk (hinv.removeOk hx)

lemma Inv.storeSafe (hinv : Inv s) (cfg : Settings) : StoreSafe cfg s where
  fingerprint := hinv.consistent.fingerprint
  fingerprint_eq := hinv.consistent.fingerprint_eq
  certificateFk := hinv.consistent.certificateFk
  historyFk := hinv.consistent.historyFk
  noPersistError := fun _ e _ => hinv.no_persistError e
  noViolation := fun _ _ => hinv.no_violation

/-- **The shared store is safe.** Whatever discoveries, deletes and sweeps run
together from a consistent store, in any order and with any of them rolled back
at any statement, every state reached is safe. -/
theorem storeSafe_of_runs (h₀ : Initial s₀) (hr : Runs cfg s₀ tr s) : StoreSafe cfg s :=
  (h₀.inv.run hr).storeSafe cfg

theorem storeSafe_sample : Runs ⟨3600, 500⟩ emptyState overlap overlapState ∧
    StoreSafe ⟨3600, 500⟩ overlapState :=
  ⟨overlap_run.runs, storeSafe_of_runs emptyState_initial overlap_run.runs⟩

end AdcsConnector
