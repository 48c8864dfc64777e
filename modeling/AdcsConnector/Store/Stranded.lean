/-
Discoveries that nothing will end.

The status of a discovery is written by its own thread: by the commit of its
persistence, or by its exception handler. A thread that dies with its process
leaves the row in progress, and nothing takes it up again.

* `State.Abandoned`: no activity has discovery `d` to end; it stays so, and the
  status of its row stays (`Abandoned.run`, `Abandoned.status_run`);
* `crashed_discovery_stays`: a discovery whose thread has died is in progress, and
  without links, in every later state that has its row;
* `CanEnd`: some continuation of the run ends the discovery;
* `canEnd_iff_thread`: an unfinished discovery can end exactly when its thread is
  there.
-/
import AdcsConnector.Store.LifeCycle

namespace AdcsConnector

variable {cfg : Settings} {s₀ s s' : State} {p q : Pid} {e : Event} {tr : List (Pid × Event)}

/-! ### Nobody ends it -/

/-- Discovery `d` was created, and no activity has it to end. -/
structure State.Abandoned (s : State) (d : ℕ) : Prop where
  spent : s.Spent d
  pending : ∀ p r, (s.procs p).pending = some r → r.id ≠ d

lemma State.Abandoned.step {d : ℕ} (ha : s.Abandoned d) (hinv : Inv s)
    (h : Step cfg s (p, e) s') : s'.Abandoned d where
  spent := ha.spent.step h
  pending := fun q r hr => by
    by_cases hq : q = p
    · subst hq
      rcases h.pending_cases hinv hr with ⟨r₀, hr₀, hid, -⟩ | ⟨hid, -⟩
      · exact hid ▸ ha.pending q r₀ hr₀
      · have hlt := ha.spent.1
        omega
    · rw [h.procs_of_ne hq] at hr
      exact ha.pending q r hr

lemma State.Abandoned.run {d : ℕ} (ha : s.Abandoned d) (hinv : Inv s) (hr : Runs cfg s tr s') :
    s'.Abandoned d :=
  (hr.invariant (I := fun s => Inv s ∧ s.Abandoned d)
    (fun _ _ _ hi hst => ⟨hi.1.step hst, hi.2.step hi.1 hst⟩) ⟨hinv, ha⟩).2

/-- The statuses of an abandoned discovery are those of before. -/
lemma State.Abandoned.status_step {d : ℕ} (ha : s.Abandoned d) (hinv : Inv s)
    (h : Step cfg s (p, e) s') : ∀ r' ∈ s'.store.discoveryHistory, r'.id = d →
      ∃ r ∈ s.store.discoveryHistory, r.id = d ∧ r'.status = r.status := by
  intro r' hr' hd
  rcases h.status_eq hinv hr' with rfl | ⟨r, hr, hid, -, hstatus⟩
  · have hx : s.procs p = .createSaved r' := h.by_self
    exact absurd hd (ha.spent.2 p r' (by rw [hx]; rfl))
  · refine ⟨r, hr, hid.trans hd, ?_⟩
    by_contra hne
    rw [hstatus] at hne
    obtain ⟨dh, hpending, hdh⟩ := h.by_self.pending hne
    exact ha.pending p dh hpending (hdh.trans (hid.trans hd))

/-- Along a run, an abandoned discovery keeps its status. -/
lemma State.Abandoned.status_run {d : ℕ} (ha : s.Abandoned d) (hinv : Inv s)
    (hr : Runs cfg s tr s') : ∀ r' ∈ s'.store.discoveryHistory, r'.id = d →
      ∃ r ∈ s.store.discoveryHistory, r.id = d ∧ r'.status = r.status := by
  refine hr.rel (I := fun s => Inv s ∧ s.Abandoned d)
    (R := fun s s' => ∀ r' ∈ s'.store.discoveryHistory, r'.id = d →
      ∃ r ∈ s.store.discoveryHistory, r.id = d ∧ r'.status = r.status)
    (fun _ _ _ hi hst => ⟨hi.1.step hst, hi.2.step hi.1 hst⟩)
    (fun a r hr hd => ⟨r, hr, hd, rfl⟩) (fun a b c hab hbc r hr hd => ?_)
    (fun _ _ _ hi hst => hi.2.status_step hi.1 hst) ⟨hinv, ha⟩
  obtain ⟨r₁, hr₁, hd₁, h₁⟩ := hbc r hr hd
  obtain ⟨r₂, hr₂, hd₂, h₂⟩ := hab r₁ hr₁ hd₁
  exact ⟨r₂, hr₂, hd₂, h₁.trans h₂⟩

/-- The discovery of a thread that dies is abandoned. -/
lemma Inv.abandoned_of_crashed (hinv : Inv s) {d : DiscoveryHistory}
    (hx : (s.procs p).pending = some d) (h : Step cfg s (p, .crashed) s') :
    s'.Abandoned d.id := by
  have horigin := Proc.origin_of_pending hx
  have hended : s'.procs p = .ended := by
    cases h
    exact State.set_procs_self ..
  refine ⟨⟨((hinv.ok p).origin d horigin).1.trans_le h.seq_le.2.1, fun q r hr => ?_⟩,
    fun q r hr => ?_⟩
  all_goals
    by_cases hq : q = p
    · subst hq
      rw [hended] at hr
      cases hr
    rw [h.procs_of_ne hq] at hr
  · have hrorigin : (s.procs q).origin = some r := by
      cases hproc : s.procs q <;> rw [hproc] at hr <;> first | exact hr | cases hr
    exact ((hinv.compatible q p hq).origin r d hrorigin horigin).1
  · exact ((hinv.compatible q p hq).origin r d (Proc.origin_of_pending hr) horigin).1

/-- **Nothing takes a discovery up again.** Once the thread of a discovery has died
before its last commit, the discovery is in progress and has no links in every
state that a run reaches with its row, whatever else runs. -/
theorem crashed_discovery_stays (h₀ : Initial s₀) (hr : Runs cfg s₀ tr s) {d : DiscoveryHistory}
    (hx : (s.procs p).pending = some d) (hst : Step cfg s (p, .crashed) s') {t : State}
    {tr' : List (Pid × Event)} (hr' : Runs cfg s' tr' t) {row : DiscoveryHistory}
    (hmem : row ∈ t.store.discoveryHistory) (hid : row.id = d.id) :
    row.status = DiscoveryStatus.inProgress.value ∧ t.store.linksOf row.id = [] := by
  have hinv := h₀.inv.run hr
  obtain ⟨hn, hpending⟩ := (h₀.lifeCycle_of_runs hr).pending p d hx
  obtain ⟨r, hrow, hrid, hsame⟩ := (hinv.abandoned_of_crashed hx hst).status_run (hinv.step hst)
    hr' row hmem hid
  rw [hst.store_eq] at hrow
  have hstatus := hsame.trans (hpending r hrow hrid)
  refine ⟨hstatus, ?_⟩
  rcases (h₀.lifeCycle_of_runs ((hr.tail hst).trans hr')).row row hmem (hid ▸ hn) with
    ⟨-, hnil⟩ | ⟨hcompleted, -⟩
  · exact hnil
  · cases DiscoveryStatus.value_injective (hstatus.symm.trans hcompleted)

/-! ### Somebody can -/

/-- Some continuation of the run completes or fails the discovery. -/
def CanEnd (cfg : Settings) (s : State) (d : ℕ) : Prop :=
  ∃ tr s' r, Runs cfg s tr s' ∧ r ∈ s'.store.discoveryHistory ∧ r.id = d ∧
    r.status ≠ DiscoveryStatus.inProgress.value

lemma CanEnd.of_step {d : ℕ} (h : Step cfg s (p, e) s') (hend : CanEnd cfg s' d) :
    CanEnd cfg s d := by
  obtain ⟨tr, t, r, hr, hmem, hid, hstatus⟩ := hend
  exact ⟨[(p, e)] ++ tr, t, r, (Run.single h).trans hr, hmem, hid, hstatus⟩

variable {row : DiscoveryHistory} {dh : DiscoveryHistory} {reason : String}

/-- The FAILED update that has matched the row commits. -/
lemma canEnd_of_failedUpdated (hmem : row ∈ s.store.discoveryHistory) (huuid : row.uuid = dh.uuid)
    (hx : s.procs p = .failedUpdated dh reason) : CanEnd cfg s row.id := by
  refine ⟨_, _, Store.failRow dh.uuid reason row, .single (.failCommit hx),
    List.mem_map_of_mem hmem, Store.failRow_id .., ?_⟩
  rw [Store.failRow, if_pos huuid]
  exact DiscoveryStatus.value_injective.ne (show .failed ≠ .inProgress by decide)

/-- A row locked by another activity is free once that activity has died. -/
lemma Inv.rowFree_of_crash (hinv : Inv s) {d : ℕ} (hrow : (s.procs q).row = some d) (hq : q ≠ p) :
    ∃ s', Step cfg s (q, .crashed) s' ∧ s'.store = s.store ∧ s'.procs p = s.procs p ∧
      s'.RowFree p d := by
  have hactive : (s.procs q).active = true := by
    cases hx : s.procs q <;> rw [hx] at hrow <;> first | rfl | cases hrow
  refine ⟨_, .crash hactive, rfl, State.set_procs_of_ne _ _ hq.symm, fun r hr => ?_⟩
  by_cases hrq : r = q
  · rw [hrq, State.set_procs_self]
    exact Option.some_ne_none d |>.symm
  · rw [State.set_procs_of_ne _ _ hrq]
    exact (hinv.compatible q r (Ne.symm hrq)).row d hrow

/-- The exception handler marks the row, if need be after the holder of the row
has died. -/
lemma canEnd_of_failing (hinv : Inv s) (hmem : row ∈ s.store.discoveryHistory)
    (huuid : row.uuid = dh.uuid) (hx : s.procs p = .failing dh reason) : CanEnd cfg s row.id := by
  have hupdate : ∀ {t : State}, t.store = s.store → t.procs p = .failing dh reason →
      t.RowFree p row.id → CanEnd cfg t row.id := by
    intro t hstore ht hfree
    rw [← hstore] at hmem
    exact .of_step (.failUpdate ht ⟨row, hmem, huuid, hfree⟩)
      (canEnd_of_failedUpdated hmem huuid (State.set_procs_self ..))
  by_cases hfree : s.RowFree p row.id
  · exact hupdate rfl hx hfree
  · simp only [State.RowFree, not_forall, not_not] at hfree
    obtain ⟨q, hq, hrow⟩ := hfree
    obtain ⟨t, hst, hstore, hprocs, hfree⟩ := hinv.rowFree_of_crash (p := p) hrow hq
    exact .of_step hst (hupdate hstore (hprocs.trans hx) hfree)

/-- A thread inside its `try` may raise. -/
lemma canEnd_of_tried (hinv : Inv s) (hmem : row ∈ s.store.discoveryHistory)
    (huuid : row.uuid = dh.uuid) (hx : (s.procs p).tried = some dh) : CanEnd cfg s row.id := by
  have hst : Step cfg s (p, .raised "") _ := .raise "" hx
  exact .of_step hst (canEnd_of_failing (hinv.step hst) hmem huuid (State.set_procs_self ..))

/-- **Only its thread can end a discovery.** A committed discovery in progress can
still be completed or failed, by some continuation of the run, exactly when its
thread is there; after a crash or a restart it stays in progress for good. -/
theorem canEnd_iff_thread (h₀ : Initial s₀) (hr : Runs cfg s₀ tr s)
    (hmem : row ∈ s.store.discoveryHistory)
    (hstatus : row.status = DiscoveryStatus.inProgress.value) :
    CanEnd cfg s row.id ↔ ∃ p d, (s.procs p).pending = some d ∧ d.id = row.id := by
  have hinv := h₀.inv.run hr
  constructor
  · rintro ⟨tr', s', r', hr', hmem', hid, hend⟩
    by_contra hnone
    have habandoned : s.Abandoned row.id :=
      ⟨hinv.spent hmem, fun p d hd heq => hnone ⟨p, d, hd, heq⟩⟩
    obtain ⟨r, hrow, hrid, hsame⟩ := habandoned.status_run hinv hr' r' hmem' hid
    obtain rfl := Rows.eq_of_key_eq hinv.consistent.historyId hrow hmem hrid
    exact hend (hsame.trans hstatus)
  · rintro ⟨p, d, hd, hid⟩
    have huuid : row.uuid = d.uuid :=
      (((hinv.ok p).origin d (Proc.origin_of_pending hd)).2.2 row hmem).mpr hid.symm
    cases hx : s.procs p with
    | createSaved d' =>
        rw [hx] at hd
        obtain rfl := Option.some.inj hd
        exact absurd hid.symm ((hinv.ok p).created d' (by rw [hx]; rfl) row hmem)
    | threadStarted d' =>
        rw [hx] at hd
        obtain rfl := Option.some.inj hd
        have hst : Step cfg s (p, .statement) _ := .threadGet row hx hmem huuid
        refine .of_step hst (canEnd_of_tried (hinv.step hst) hmem rfl (p := p) ?_)
        rw [State.set_procs_self]
        rfl
    | failing d' reason =>
        rw [hx] at hd
        obtain rfl := Option.some.inj hd
        exact canEnd_of_failing hinv hmem huuid hx
    | failedUpdated d' reason =>
        rw [hx] at hd
        obtain rfl := Option.some.inj hd
        exact canEnd_of_failedUpdated hmem huuid hx
    | _ =>
        refine canEnd_of_tried hinv hmem huuid (p := p) ?_
        rw [hx] at hd ⊢
        exact hd

/-- The thread of the sample discovery, just started. -/
lemma sample_creation (cfg : Settings) : ∃ s, Runs cfg emptyState sampleCreation s ∧
    s.store.discoveryHistory = [sampleRow] ∧ s.procs 0 = .threadStarted sampleRow := by
  have h : SoloRun cfg 0 emptyState [] emptyState := ⟨.refl, fun q hq => ⟨rfl, rfl, rfl, rfl, rfl⟩⟩
  have h := h.tail fun _ => .createBegin ⟨"d", "PyADCS-WinRM"⟩ rfl
  have h := h.tail fun _ => .createCheck rfl rfl (by simp [emptyState])
  have h := h.tail fun _ => .createSave 7 rfl (by simp [emptyState])
  have h := h.tail fun _ => .createCommit (show _ = Proc.createSaved sampleRow from rfl)
  exact ⟨_, h.runs, rfl, rfl⟩

/-- The link of the second discovery, where the first one has died. -/
def survivorLink : DiscoveryCertificate :=
  ⟨1, 5, some [caNameMetadataAttribute "Test CA", templateNameMetadataAttribute "WebServer"], 2, 1⟩

lemma survivor_links : discoveryCertificates 2 sampleCollected.cas
    (idByFp [sampleCertificate] (Dict.keys (uniqueCertificates sampleCollected.totalCertificates)))
    1 [5] sampleCollected.totalCertificates = .ok [survivorLink] := by
  decide +kernel

/-- The first of two discoveries dies when it has collected, and stays in progress while
the second one is completed. -/
theorem crashed_discovery_stays_sample : ∃ s t tr,
    Runs ⟨3600, 500⟩ emptyState overlapCollection collectedState ∧
    Step ⟨3600, 500⟩ collectedState (0, .crashed) s ∧ Runs ⟨3600, 500⟩ s tr t ∧
    Completes 2 [survivorLink] tr ∧ sampleRow ∈ t.store.discoveryHistory ∧
    sampleRow.status = DiscoveryStatus.inProgress.value ∧ t.store.linksOf sampleRow.id = [] := by
  have h := overlap_collects ⟨3600, 500⟩
  have hst : Step ⟨3600, 500⟩ collectedState (0, .crashed) _ := .crash rfl
  have h' := (h.tail (by decide) hst).rest
  have h' := h'.tail (p := 1) (by decide) (.persistBegin rfl)
  have h' := h'.tail (p := 1) (by decide) (.persistLock rfl (show _ = [] ++ 1 :: [] from rfl)
    (h'.grantable (by decide)))
  have h' := h'.tail (p := 1) (by decide) (.selectForUpdate rfl
    ⟨secondRow, show _ ∈ [_, secondRow] from by simp, rfl⟩ (h'.rowFree (by decide)))
  have h' := h'.tail (p := 1) (by decide) (.insertNew
    (show _ = Proc.inserting _ _ [(certificateFingerprint "abc", "abc")] [] from rfl)
    (show ∀ cert ∈ ([] : List Certificate), cert.fingerprint ≠ _ from List.forall_mem_nil _)
    (h'.indexFree _ (by decide)))
  have h' := h'.tail (p := 1) (by decide) (.selectIds rfl)
  have h' := h'.tail (p := 1) (by decide) (.link [5] rfl rfl
    (show _ = Except.ok [survivorLink] from survivor_links))
  have h' := h'.tail (p := 1) (by decide)
    (.save rfl ⟨secondRow, show _ ∈ [_, secondRow] from by simp, rfl⟩)
  have h' := h'.tail (p := 1) (by decide) (.persistCommit rfl (by
    simp [Store.LinksOk, Store.persist, survivorLink, secondRow, collectedState,
      Store.completeRow]))
  exact ⟨_, _, _, h.runs, hst, h'.runs, ⟨1, _, List.mem_append_right _ (List.mem_singleton_self _)⟩,
    List.mem_cons_self, crashed_discovery_stays (d := sampleRow) emptyState_initial h.runs rfl hst
      h'.runs List.mem_cons_self rfl⟩

/-- The sample discovery can end while its thread is there. -/
theorem canEnd_iff_thread_sample : ∃ s, Runs ⟨3600, 500⟩ emptyState sampleCreation s ∧
    CanEnd ⟨3600, 500⟩ s sampleRow.id := by
  obtain ⟨s, hr, hrows, hx⟩ := sample_creation ⟨3600, 500⟩
  have hmem : sampleRow ∈ s.store.discoveryHistory := by rw [hrows]; exact List.mem_cons_self
  exact ⟨s, hr, (canEnd_iff_thread emptyState_initial hr hmem rfl).mpr
    ⟨0, sampleRow, by rw [hx]; rfl, rfl⟩⟩

end AdcsConnector
