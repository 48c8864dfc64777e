/-
What a persistence shares with the discoveries before it.

The shared lock is held from `pg_advisory_xact_lock_shared` to the commit. No batch
of a sweep commits in between, so that what the store has when the lock is granted
is there when the links are written.

* `Proc.persisting`: the collection of an activity that holds the shared lock;
* `Holding`: what has stayed since the lock was granted (`Holding.step`);
* `Reuses`: the certificates found are linked and not stored again;
* `persisted_reuses`: so it is for every persistence, whatever else runs.
-/
import AdcsConnector.Store.LifeCycle

namespace AdcsConnector

variable {cfg : Settings} {s₀ s t t' : State} {p q : Pid} {e : Event} {tr : List (Pid × Event)}
  {c : Collected}

namespace Proc

/-- The collection that is being persisted, under the shared lock. -/
def persisting : Proc → Option Collected
  | persistLocked _ c | inserting _ c .. | selected _ c .. | linked _ c .. | saved _ c .. => some c
  | _ => none

/-- A thread that has left its persistence, for good. -/
def past : Proc → Bool
  | persistAbsent .. | completed .. | failing .. | failedUpdated .. | ended => true
  | _ => false

lemma advisory_of_persisting {x : Proc} (h : x.persisting = some c) :
    x.advisory = some .shared := by
  cases x <;> first | rfl | cases h

end Proc

/-- Activity `p` persists `c`, and nothing that `s` had is gone. -/
structure Holding (s : State) (p : Pid) (c : Collected) (t : State) : Prop where
  persisting : (t.procs p).persisting = some c
  kept : s.store.certificate ⊆ t.store.certificate
  inserted : ∀ k ∈ (t.procs p).inserted, k.fingerprint ∈ fingerprints c.totalCertificates

/-- A persistence goes on with its collection, or is left. -/
lemma Step.persisting_cases (h : Step cfg t (p, e) t')
    (hx : (t.procs p).persisting = some c) :
    (t'.procs p).persisting = some c ∨ (t'.procs p).past = true := by
  cases h with
  | selectForUpdate h | insertConflict h | insertNew h | selectIds h | link _ h | save h =>
      rw [h] at hx
      rw [State.set_procs_self]
      exact .inl hx
  | selectAbsent | linkRaise | saveRaise | persistCommit | persistViolation | raise | crash =>
      rw [State.set_procs_self]
      exact .inr rfl
  | _ => simp_all [Proc.persisting]

/-- A thread that has left its persistence stays out of it. -/
lemma Step.past (h : Step cfg t (p, e) t') (hx : (t.procs p).past = true) :
    (t'.procs p).past = true := by
  cases h with
  | absentCommit | raise | failUpdate | failAbsent | failCommit | crash =>
      rw [State.set_procs_self]
      rfl
  | _ => simp_all [Proc.past]

/-- A certificate inserted was, or is one of the collection. -/
lemma Step.inserted_of_persisting (h : Step cfg t (p, e) t') (hinv : Inv t)
    (hx : (t.procs p).persisting = some c) :
    ∀ k ∈ (t'.procs p).inserted,
      k ∈ (t.procs p).inserted ∨ k.fingerprint ∈ fingerprints c.totalCertificates := by
  intro k hk
  cases h with
  | @insertNew p dh c' fp content todo ins hproc hnew hfree =>
      have hknows := (hinv.ok p).knows
      rw [hproc] at hknows hx ⊢
      obtain rfl : c' = c := Option.some.inj hx
      rw [State.set_procs_self] at hk
      rcases List.mem_append.mp hk with hk | hk
      · exact .inl hk
      · have hmem := hknows.1.subset List.mem_cons_self
        rw [List.mem_singleton.mp hk]
        exact .inr (mem_newCertificates_fst.mp (List.mem_map_of_mem (f := Prod.fst) hmem))
  | _ => simp_all [Proc.inserted, Proc.persisting]

/-- No batch commits while a persistence holds the shared lock. -/
lemma Inv.not_batch_of_persisting (hinv : Inv t) (h : Step cfg t (q, e) t')
    (hx : (t.procs p).persisting = some c) (ids : List ℕ) (ret : Option ℕ) :
    e ≠ .batch ids ret := by
  rintro rfl
  obtain ⟨bound, n, hq⟩ := h.by_self
  have hne : p ≠ q := by
    rintro rfl
    rw [hq] at hx
    cases hx
  exact (hinv.compatible p q hne).advisory .shared .exclusive (Proc.advisory_of_persisting hx)
    (by rw [hq]; rfl) (.inr rfl)

/-- Whatever step is taken, the persistence holds on or is left. -/
lemma Holding.step (hhold : Holding s p c t) (hinv : Inv t) (h : Step cfg t (q, e) t') :
    Holding s p c t' ∨ (t'.procs p).past = true := by
  have hkept : s.store.certificate ⊆ t'.store.certificate := by
    rw [h.store_eq]
    exact List.Subset.trans hhold.kept
      (Event.certificate_subset (hinv.not_batch_of_persisting h hhold.persisting))
  by_cases hpq : p = q
  · subst hpq
    refine (h.persisting_cases hhold.persisting).imp_left fun hx => ⟨hx, hkept, fun k hk => ?_⟩
    exact (h.inserted_of_persisting hinv hhold.persisting k hk).elim (hhold.inserted k) id
  · refine .inl ⟨?_, hkept, ?_⟩ <;> rw [h.procs_of_ne hpq]
    · exact hhold.persisting
    · exact hhold.inserted

lemma Holding.run (hhold : Holding s p c t) (hinv : Inv t) (hr : Runs cfg t tr t') :
    Holding s p c t' ∨ (t'.procs p).past = true := by
  refine (hr.invariant (I := fun t => Inv t ∧ (Holding s p c t ∨ (t.procs p).past = true))
    (fun a e b hi hst => ⟨hi.1.step hst, ?_⟩) ⟨hinv, .inl hhold⟩).2
  obtain ⟨q, e⟩ := e
  rcases hi.2 with hhold | hpast
  · exact hhold.step hi.1 hst
  · by_cases hpq : p = q
    · subst hpq
      exact .inr (hst.past hpast)
    · exact .inr (by rwa [hst.procs_of_ne hpq])

/-- What a persistence does with the certificates of the state `s` in which it was
given the lock. -/
structure Reuses (s t t' : State) (c : Collected) (ins : List Certificate)
    (links : List DiscoveryCertificate) : Prop where
  kept : s.store.certificate ⊆ t'.store.certificate
  inserted : ∀ k' ∈ ins, k'.fingerprint ∈ fingerprints c.totalCertificates ∧
    ∀ k ∈ s.store.certificate, k.fingerprint ≠ k'.fingerprint
  linked : List.Forall₂ (fun cert link => ∀ k ∈ s.store.certificate,
    k.fingerprint = certificateFingerprint cert.certificate → link.certificateId = k.id)
    c.totalCertificates links
  unchanged : (∀ fp ∈ fingerprints c.totalCertificates,
    ∃ k ∈ s.store.certificate, k.fingerprint = fp) → t'.store.certificate = t.store.certificate

/-- **What is there is shared.** From the moment the shared lock is granted to a
persistence up to its commit, whatever other discoveries, deletes and sweeps do:
no certificate that was there is gone, none is stored a second time, every
collected certificate that was there is linked by its row, and when all of them
were there the commit leaves the certificate table as it is. -/
theorem persisted_reuses (h₀ : Initial s₀) (hr : Runs cfg s₀ tr s) {dh : DiscoveryHistory}
    (hx : s.procs p = .persistLocked dh c) {tr' : List (Pid × Event)} (hr' : Runs cfg s tr' t)
    {d : ℕ} {ins : List Certificate} {links : List DiscoveryCertificate}
    (hst : Step cfg t (p, .persisted d ins links) t') : Reuses s t t' c ins links := by
  have hinv := h₀.inv.run hr
  have ht := hinv.run hr'
  have hstart : Holding s p c s :=
    ⟨by rw [hx]; rfl, List.Subset.refl _, by rw [hx]; exact fun k hk => by cases hk⟩
  obtain ⟨dh', c', hsaved, -, rfl⟩ := hst.completed_of_persisted
  have hhold := (hstart.run hinv hr').resolve_right (by simp [hsaved, Proc.past])
  have hok := ht.ok p
  rw [hsaved] at hok
  obtain rfl : c' = c := by
    have hpersisting := hhold.persisting
    rw [hsaved] at hpersisting
    exact Option.some.inj hpersisting
  have hstore : t'.store.certificate = t.store.certificate ++ ins := by
    rw [hst.store_eq]
    rfl
  have hinserted : ∀ k' ∈ ins, k'.fingerprint ∈ fingerprints c'.totalCertificates ∧
      ∀ k ∈ s.store.certificate, k.fingerprint ≠ k'.fingerprint := fun k' hk' =>
    ⟨hhold.inserted k' (by rw [hsaved]; exact hk'), fun k hk =>
      ((hok.inserted k' hk').2.2 k (hhold.kept hk)).2⟩
  refine ⟨?_, hinserted, ?_, fun hall => ?_⟩
  · rw [hstore]
    exact List.Subset.trans hhold.kept (List.subset_append_left _ _)
  · have hknows : List.Forall₂ (LinkTo (t.store.certificate ++ ins) dh'.id c'.cas)
        c'.totalCertificates links := hok.knows
    refine hknows.imp fun cert link hlink k hk hfp => ?_
    obtain ⟨k', hk', hid, hfp'⟩ := hlink.certificate
    rw [← hstore] at hk'
    have hmem : k ∈ t'.store.certificate := by
      rw [hstore]
      exact List.mem_append_left _ (hhold.kept hk)
    rw [← hid, Rows.eq_of_key_eq (ht.step hst).consistent.fingerprint hk' hmem
      (hfp'.trans hfp.symm)]
  · rw [hstore, List.append_right_eq_self]
    refine List.eq_nil_iff_forall_not_mem.mpr fun k' hk' => ?_
    obtain ⟨hmem, hfresh⟩ := hinserted k' hk'
    obtain ⟨k, hk, hfp⟩ := hall _ hmem
    exact hfresh k hk hfp

/-! ### A third discovery of what two others share -/

def thirdRow : DiscoveryHistory := ⟨3, 9, "g", DiscoveryStatus.inProgress.value, none⟩

def thirdLink : DiscoveryCertificate :=
  ⟨4, 6, some [caNameMetadataAttribute "Test CA", templateNameMetadataAttribute "WebServer"], 3, 2⟩

lemma third_links : discoveryCertificates 3 sampleCollected.cas
    (idByFp pairCertificates (Dict.keys (uniqueCertificates sampleCollected.totalCertificates)))
    4 [6] sampleCollected.totalCertificates = .ok [thirdLink] := by
  decide +kernel

/-- A third discovery collects the certificate that two have stored, and persists it
while the first of these is deleted. -/
theorem persisted_reuses_sample : ∃ s t t' tr tr', Runs ⟨3600, 500⟩ emptyState tr s ∧
    s.procs 2 = .persistLocked thirdRow sampleCollected ∧ s.store.certificate = pairCertificates ∧
    Runs ⟨3600, 500⟩ s tr' t ∧ Deletes 1 tr' ∧
    Reuses s t t' sampleCollected [] [thirdLink] := by
  have h := overlap_shared ⟨3600, 500⟩
  have h := h.tail (p := 2) (by decide) (.createBegin ⟨"g", "PyADCS-WinRM"⟩ rfl)
  have h := h.tail (p := 2) (by decide) (.createCheck rfl rfl (by simp [sharedState]))
  have h := h.tail (p := 2) (by decide) (.createSave 9 rfl (by simp [sharedState]))
  have h := h.tail (p := 2) (by decide)
    (.createCommit (show _ = Proc.createSaved thirdRow from rfl))
  have h := h.tail (p := 2) (by decide)
    (.threadGet thirdRow rfl (show _ ∈ [_, _, thirdRow] from by simp) rfl)
  have h := h.tail (p := 2) (by decide) (.collect sampleCollected rfl)
  have h := h.tail (p := 2) (by decide) (.persistBegin rfl)
  have h := h.tail (p := 2) (by decide) (.persistLock rfl (show _ = [] ++ 2 :: [] from rfl)
    (h.grantable (by decide)))
  -- from the lock on, with the DELETE of another discovery
  have h' := h.rest
  have h' := h'.tail (p := 3) (by decide) (.deleteBegin 7 rfl)
  have h' := h'.tail (p := 2) (by decide) (.selectForUpdate rfl
    ⟨thirdRow, show _ ∈ [_, _, thirdRow] from by simp, rfl⟩ (h'.rowFree (by decide)))
  have h' := h'.tail (p := 3) (by decide) (.deleteLock
    ⟨1, 7, "d", DiscoveryStatus.completed.value, none⟩ rfl List.mem_cons_self rfl
    (h'.rowFree (by decide)))
  have h' := h'.tail (p := 2) (by decide) (.insertConflict
    (show _ = Proc.inserting _ _ [(certificateFingerprint "abc", "abc")] [] from rfl)
    ⟨⟨2, certificateFingerprint "abc", "abc"⟩,
      show _ ∈ pairCertificates ++ [] from by simp [pairCertificates], rfl⟩
    (h'.indexFree _ (by decide)))
  have h' := h'.tail (p := 3) (by decide) (.deleteCascade rfl)
  have h' := h'.tail (p := 2) (by decide) (.selectIds rfl)
  have h' := h'.tail (p := 2) (by decide) (.link [6] rfl rfl
    (show _ = Except.ok [thirdLink] from third_links))
  have h' := h'.tail (p := 3) (by decide) (.deleteRow rfl)
  have h' := h'.tail (p := 3) (by decide)
    (.deleteCommit (show _ = Proc.deleteDeleted _ [1, 2] from rfl)
    (show ∀ l ∈ [secondLink], l.discoveryId ≠ 1 from by simp [secondLink]))
  have h' := h'.tail (p := 2) (by decide)
    (.save rfl ⟨thirdRow, show _ ∈ [_, thirdRow] from by simp, rfl⟩)
  have h' := h'.tail (p := 2) (by decide) (.persistCommit rfl (by
    simp [Store.LinksOk, Store.persist, thirdLink, pairCertificates, thirdRow, sharedState,
      Store.addHistory, Store.deleteHistory, Store.completeRow]))
  obtain ⟨t, ht, hst⟩ := h'.runs.of_append_singleton
  exact ⟨_, t, _, _, _, h.runs, rfl, rfl, ht, ⟨3, [1, 2], by simp⟩,
    persisted_reuses emptyState_initial h.runs rfl ht hst⟩

end AdcsConnector
