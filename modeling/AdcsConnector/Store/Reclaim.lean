/-
What a sweep does to a store that no one else changes meanwhile.

The batches are there so that a discovery waits for one of them only. They change
nothing of the outcome: whatever rows the LIMIT of each picks and whatever its size
is, the sweep leaves what one DELETE of all the orphans would have left.

* `Store.linkedCertificates`: the outcome of that DELETE;
* `SoleWriter`: a run in which the others commit nothing to the two tables;
* `Reclaiming`: how far the sweep is (`Reclaiming.step`);
* `Ready`: a sweep between two batches that nobody keeps from the next one;
* `sweep_reclaims`: the outcome of a sweep, and that it comes to it.
-/
import AdcsConnector.Store.Sweep

namespace AdcsConnector

variable {cfg : Settings} {s₀ s s' t t' : State} {p q : Pid} {e : Event}
  {tr : List (Pid × Event)} {b : ℕ}

/-- The certificates that a link refers to. -/
def Store.linkedCertificates (s : Store) : List Certificate :=
  s.certificate.filter fun c => ¬ s.Orphan c.id

/-- A commit that writes certificates or links. -/
def Event.touches : Event → Bool
  | persisted .. | deleted .. | batch .. => true
  | _ => false

/-- No other activity writes certificates or links. -/
def SoleWriter (p : Pid) (tr : List (Pid × Event)) : Prop :=
  ∀ e ∈ tr, e.1 ≠ p → e.2.touches = false

lemma Event.commit_of_not_touches (h : e.touches = false) (s : Store) :
    (e.commit s).certificate = s.certificate ∧
      (e.commit s).discoveryCertificate = s.discoveryCertificate := by
  cases e <;> first | exact ⟨rfl, rfl⟩ | cases h

lemma Store.Orphan.congr {s s' : Store} (h : s'.discoveryCertificate = s.discoveryCertificate)
    (id : ℕ) : s'.Orphan id ↔ s.Orphan id := by
  rw [Store.Orphan, Store.Orphan, h]

lemma Store.orphanIds_congr {s s' : Store} (hcert : s'.certificate = s.certificate)
    (hlinks : s'.discoveryCertificate = s.discoveryCertificate) (b : ℕ) :
    s'.orphanIds b = s.orphanIds b := by
  rw [Store.orphanIds, Store.orphanIds, hcert]
  refine congrArg _ (List.filter_congr fun c _ => ?_)
  rw [Bool.eq_iff_iff]
  simp [Store.Orphan.congr hlinks]

lemma Store.linkedCertificates_congr {s s' : Store} (hcert : s'.certificate = s.certificate)
    (hlinks : s'.discoveryCertificate = s.discoveryCertificate) :
    s'.linkedCertificates = s.linkedCertificates := by
  rw [Store.linkedCertificates, Store.linkedCertificates, hcert]
  exact List.filter_congr fun c _ => by rw [Bool.eq_iff_iff]; simp [Store.Orphan.congr hlinks]

/-- Taking orphans out leaves the linked certificates as they are. -/
lemma Store.linkedCertificates_remove {s : Store} {ids : List ℕ} (h : ∀ id ∈ ids, s.Orphan id) :
    (s.removeCertificates ids).linkedCertificates = s.linkedCertificates := by
  rw [Store.linkedCertificates, Store.removeCertificates, List.filter_filter]
  refine List.filter_congr fun c _ => ?_
  rw [Bool.eq_iff_iff]
  have horphan := h c.id
  have hsame : (s.removeCertificates ids).Orphan c.id ↔ s.Orphan c.id := Store.Orphan.congr rfl c.id
  rw [Store.removeCertificates] at hsame
  simp only [hsame, Bool.and_eq_true, decide_eq_true_eq]
  tauto

/-- A batch that is not full takes every orphan up to its bound. -/
lemma mem_of_short_batch {s : Store} {ids : List ℕ} {k : ℕ} (hids : ids.Subperm (s.orphanIds b))
    (hlimit : ids.length = min k (s.orphanIds b).length) (hshort : ids.length < k) {id : ℕ}
    (hid : id ∈ s.orphanIds b) : id ∈ ids := by
  obtain ⟨l, hperm, hsub⟩ := hids
  have hlen : (s.orphanIds b).length ≤ l.length := by
    rw [hperm.length_eq]
    omega
  rw [← hperm.mem_iff, hsub.eq_of_length_le hlen]
  exact hid

/-- Every id is at most the highest one. -/
lemma Store.le_maxCertificateId {s : Store} {c : Certificate} (hc : c ∈ s.certificate) :
    c.id ≤ s.maxCertificateId :=
  List.le_max_of_le (List.mem_map_of_mem hc) le_rfl

/-! ### The outcome -/

/-- Where a sweep of the store `S` up to `b` has come to, `n` certificates deleted. -/
inductive Phase (cfg : Settings) (S : Store) (b : ℕ) (t : Store) : Proc → Prop
  | going {x : Proc} (n : ℕ) (hx : x.sweep = some (b, n))
      (hcount : n + t.certificate.length = S.certificate.length)
      (hbatch : ∀ ids, x = .batchDeleted b n ids → ids.Subperm (t.orphanIds b) ∧
        ids.length = min cfg.batchSize (t.orphanIds b).length) : Phase cfg S b t x
  | done (n : ℕ) (hcount : n + t.certificate.length = S.certificate.length)
      (hall : ∀ c ∈ t.certificate, ¬ t.Orphan c.id) : Phase cfg S b t (.swept n)
  | dead : Phase cfg S b t .ended

/-- A sweep of the store `S` while no one else changes it. -/
structure Reclaiming (cfg : Settings) (S : Store) (p : Pid) (b : ℕ) (t : State) : Prop where
  inv : Inv t
  ok : ∀ q, SweepOk t.store (t.procs q)
  links : t.store.discoveryCertificate = S.discoveryCertificate
  linked : t.store.linkedCertificates = S.linkedCertificates
  bounded : ∀ c ∈ t.store.certificate, c.id ≤ b
  phase : Phase cfg S b t.store (t.procs p)

/-- The commit of a batch brings the sweep forward, the last one to its outcome. -/
lemma Reclaiming.batch {S : Store} (hrec : Reclaiming cfg S p b t) {ids : List ℕ}
    {ret : Option ℕ} (h : Step cfg t (p, .batch ids ret) t') : Reclaiming cfg S p b t' := by
  obtain ⟨bound, m, hx, hcases⟩ := h.batch_cases
  have hphase := hrec.phase
  rw [hx] at hphase
  obtain @⟨_, n, hsweep, hcount, hbatch⟩ := hphase
  obtain ⟨rfl, rfl⟩ : bound = b ∧ m = n := by simpa [Proc.sweep] using hsweep
  obtain ⟨hids, hlimit⟩ := hbatch ids rfl
  have horphan : ∀ id ∈ ids, t.store.Orphan id := fun id hid =>
    (mem_orphanIds.mp (hids.subset hid)).2.1
  have hstore : t'.store = t.store.removeCertificates ids := h.store_eq
  have hlength : t'.store.certificate.length + ids.length = t.store.certificate.length :=
    hrec.inv.length_certificate hrec.ok h
  refine ⟨hrec.inv.step h, hrec.inv.sweepOk_step h hrec.ok, by rw [hstore]; exact hrec.links,
    by rw [hstore, Store.linkedCertificates_remove horphan, hrec.linked], fun c hc => ?_, ?_⟩
  · rw [hstore] at hc
    exact hrec.bounded c (List.mem_of_mem_filter hc)
  · rcases hcases with ⟨-, -, hx'⟩ | ⟨-, hshort, hx'⟩ <;> rw [hx']
    · exact .going (m + ids.length) rfl (by omega) fun _ h => by cases h
    · refine .done _ (by omega) fun c hc hc' => ?_
      rw [hstore] at hc hc'
      obtain ⟨hmem, hnot⟩ := List.mem_filter.mp hc
      refine absurd (mem_of_short_batch hids hlimit hshort (mem_orphanIds.mpr ?_))
        (by simpa using hnot)
      exact ⟨hrec.bounded c hmem, hc', c, hmem, rfl⟩

/-- A step that touches neither table keeps what is known of the sweep. -/
lemma Reclaiming.of_not_touches {S : Store} (hrec : Reclaiming cfg S p b t)
    (h : Step cfg t (q, e) t') (htouch : e.touches = false)
    (hphase : t'.store.certificate = t.store.certificate →
      t'.store.orphanIds b = t.store.orphanIds b → Phase cfg S b t'.store (t'.procs p)) :
    Reclaiming cfg S p b t' := by
  obtain ⟨hcert, hlinks⟩ := e.commit_of_not_touches htouch t.store
  rw [← h.store_eq] at hcert hlinks
  refine ⟨hrec.inv.step h, hrec.inv.sweepOk_step h hrec.ok, hlinks.trans hrec.links, ?_,
    hcert ▸ hrec.bounded, hphase hcert (Store.orphanIds_congr hcert hlinks b)⟩
  rw [← hrec.linked, Store.linkedCertificates_congr hcert hlinks]

/-- A sweep writes by its batches only. -/
lemma Step.touches_of_sweep (h : Step cfg t (p, e) t') {n : ℕ}
    (hx : (t.procs p).sweep = some (b, n)) (hzero : e.batches = 0) : e.touches = false := by
  have hby := h.by_self
  cases e with
  | persisted d ins links =>
      obtain ⟨dh, c, hx', -⟩ := hby
      rw [hx'] at hx
      cases hx
  | deleted d dropped =>
      obtain ⟨dh, hx', -⟩ := hby
      rw [hx'] at hx
      cases hx
  | batch ids ret => cases hzero
  | _ => rfl

lemma Reclaiming.step {S : Store} (hrec : Reclaiming cfg S p b t) (h : Step cfg t (q, e) t')
    (hsole : q ≠ p → e.touches = false) : Reclaiming cfg S p b t' := by
  have hphase := hrec.phase
  by_cases hq : q = p
  · subst hq
    generalize hx : t.procs q = x at hphase
    cases hphase with
    | going n hsweep hcount hbatch =>
        rw [← hx] at hsweep
        rcases h.sweep_cases hsweep with ⟨hzero, hx'⟩ | ⟨ids, ret, rfl, -⟩
        · have htouch := h.touches_of_sweep hsweep hzero
          refine hrec.of_not_touches h htouch fun hcert hids => ?_
          rcases hx' with hx' | hx'
          · refine .going n hx' (hcert ▸ hcount) fun ids hdel => ?_
            obtain ⟨-, -, hsub, hlimit⟩ := h.batchDelete_cases hdel
            rw [hids]
            exact ⟨hsub, hlimit⟩
          · rw [hx']
            exact .dead
        · exact hrec.batch h
    | done n => exact absurd hx (h.not_over.2 n)
    | dead => exact absurd hx h.not_over.1
  · refine hrec.of_not_touches h (hsole hq) fun hcert hids => ?_
    rw [h.procs_of_ne (Ne.symm hq)]
    have hlinks := (e.commit_of_not_touches (hsole hq) t.store).2
    rw [← h.store_eq] at hlinks
    generalize t.procs p = x at hphase ⊢
    cases hphase with
    | going n hsweep hcount hbatch => exact .going n hsweep (hcert ▸ hcount) (hids ▸ hbatch)
    | done n hcount hall =>
        refine .done n (hcert ▸ hcount) fun c hc => ?_
        rw [Store.Orphan.congr hlinks]
        exact hall c (hcert ▸ hc)
    | dead => exact .dead

lemma Reclaiming.run {S : Store} (hrec : Reclaiming cfg S p b t) (hr : Runs cfg t tr t')
    (hsole : SoleWriter p tr) : Reclaiming cfg S p b t' :=
  hr.invariant_of_forall (P := fun e : Pid × Event => e.1 ≠ p → e.2.touches = false)
    (fun _ _ _ he hrec hst => hrec.step hst he) hsole hrec

/-- The claim of the lease starts the sweep with nothing deleted. -/
lemma Reclaiming.of_claimed (hinv : Inv s) (hok : ∀ q, SweepOk s.store (s.procs q)) {now : ℤ}
    {st : CertificateCleanupState} (h : Step cfg s (p, .claimed now b st) s') :
    Reclaiming cfg s.store p b s' := by
  have hb := hok p
  rw [show s.procs p = .claimBounded now st b from h.by_self] at hb
  have hstore : s'.store = s.store.saveState st := h.store_eq
  have hx : s'.procs p = .sweeping b 0 := by
    cases h with
    | claimCommit => exact State.set_procs_self ..
  refine ⟨hinv.step h, hinv.sweepOk_step h hok, by rw [hstore]; rfl, by rw [hstore]; rfl,
    fun c hc => ?_, ?_⟩
  · rw [hstore] at hc
    rw [show b = s.store.maxCertificateId from hb]
    exact Store.le_maxCertificateId hc
  · rw [hx, hstore]
    exact .going 0 rfl (Nat.zero_add _) fun _ h => by cases h

/-! ### The way there -/

/-- A sweep between two batches that has the advisory lock to itself. -/
structure Ready (p : Pid) (t : State) : Prop where
  inv : Inv t
  ok : ∀ q, SweepOk t.store (t.procs q)
  sweeping : ∃ b n, t.procs p = .sweeping b n
  queue : t.queue = []
  free : ∀ q, q ≠ p → (t.procs q).advisory = none

variable (cfg) in
/-- A batch that nobody disturbs, up to its commit. -/
lemma Ready.batchDeleted (hready : Ready p t) : ∃ tr m b n ids, Runs cfg t tr m ∧
    (∀ e ∈ tr, e.1 = p) ∧ m.procs p = .batchDeleted b n ids ∧ m.store = t.store ∧
    m.queue = [] ∧ (∀ q, q ≠ p → m.procs q = t.procs q) := by
  obtain ⟨b, n, hx⟩ := hready.sweeping
  have h : Runs cfg t _ _ := .single (.batchBegin hx)
  have h := h.tail (.batchLock (State.set_procs_self ..)
    (show _ = [] ++ p :: [] by rw [State.set_queue, hready.queue])
    ⟨fun q hq m hm => by simp [State.set_procs_of_ne, hq, hready.free q hq] at hm, by simp⟩)
  have h := h.tail (.batchDelete ((t.store.orphanIds b).take cfg.batchSize)
    (State.set_procs_self ..) (List.take_sublist ..).subperm (List.length_take ..))
  refine ⟨_, _, b, n, _, h, by simp, State.set_procs_self .., rfl, rfl, fun q hq => ?_⟩
  simp [State.set_procs_of_ne, hq]

lemma Ready.batch (hready : Ready p t) : ∃ tr t', Runs cfg t tr t' ∧ (∀ e ∈ tr, e.1 = p) ∧
    ((∃ n, t'.procs p = .swept n) ∨
      Ready p t' ∧ t'.store.certificate.length < t.store.certificate.length) := by
  obtain ⟨tr, m, b, n, ids, hr, hown, hx, hstore, hqueue, hother⟩ := hready.batchDeleted cfg
  have hm : Inv m ∧ ∀ q, SweepOk m.store (m.procs q) :=
    hr.invariant (I := fun t => Inv t ∧ ∀ q, SweepOk t.store (t.procs q))
      (fun _ _ _ hi hst => ⟨hi.1.step hst, hi.1.sweepOk_step hst hi.2⟩) ⟨hready.inv, hready.ok⟩
  have hfk : ∀ l ∈ m.store.discoveryCertificate, l.certificateId ∉ ids := fun l hl hid =>
    (hm.1.ok p).removed l.certificateId (by rw [hx]; exact hid) l hl rfl
  by_cases hfull : cfg.batchSize ≤ ids.length
  · have hst := Step.batchCommit hx hfk hfull
    have hlength := hm.1.length_certificate hm.2 hst
    refine ⟨_, _, hr.tail hst, by simpa [or_imp, forall_and] using hown, .inr ⟨⟨hm.1.step hst,
      hm.1.sweepOk_step hst hm.2, ⟨b, _, State.set_procs_self ..⟩, hqueue, fun q hq => ?_⟩, ?_⟩⟩
    · rw [State.set_procs_of_ne _ _ hq]
      simpa [hother q hq] using hready.free q hq
    · have hpos := cfg.batchSize_pos
      rw [← hstore]
      simp only [Event.removedIds, Event.insertedCertificates, List.length_nil] at hlength
      omega
  · have hst := Step.batchLast hx hfk (Nat.lt_of_not_le hfull)
    exact ⟨_, _, hr.tail hst, by simpa [or_imp, forall_and] using hown,
      .inl ⟨_, State.set_procs_self ..⟩⟩

/-- Nobody has the advisory lock when a claim commits. -/
lemma Ready.of_claimed (hinv : Inv s) (hok : ∀ q, SweepOk s.store (s.procs q)) {now : ℤ}
    {st : CertificateCleanupState} (h : Step cfg s (p, .claimed now b st) s')
    (hqueue : s.queue = []) : Ready p s' := by
  have hx : s.procs p = .claimBounded now st b := h.by_self
  refine ⟨hinv.step h, hinv.sweepOk_step h hok, ⟨b, 0, ?_⟩, ?_, fun q hq => ?_⟩
  · cases h with
    | claimCommit => exact State.set_procs_self ..
  · cases h with
    | claimCommit => exact hqueue
  · rw [h.procs_of_ne hq]
    cases hadv : (s.procs q).advisory with
    | none => rfl
    | some m => exact absurd (.inl rfl) ((hinv.compatible p q hq.symm).advisory .exclusive m
        (by rw [hx]; rfl) hadv)

/-- What a sweep claimed in the state `s` and ended in the state `t` has done, when it
has returned `n`. -/
structure Reclaimed (s t : State) (n : ℕ) : Prop where
  certificate : t.store.certificate = s.store.linkedCertificates
  links : t.store.discoveryCertificate = s.store.discoveryCertificate
  count : n + s.store.linkedCertificates.length = s.store.certificate.length
  empty : s.store.discoveryHistory = [] → t.store.certificate = []

/-- **The batches are one DELETE.** From the commit of its claim, whatever the others
do short of writing certificates or links, a sweep that returns has deleted exactly the
certificates that no link refers to and returns their number, whatever the batch size is
and whichever rows each LIMIT has picked; once all discoveries are deleted it empties the
table. And it does return, by its own steps, when nobody queues for the lock. -/
theorem sweep_reclaims (h₀ : Initial s₀) (hr : Runs cfg s₀ tr s) {now : ℤ}
    {st : CertificateCleanupState} (hst : Step cfg s (p, .claimed now b st) s') :
    (∀ tr' t n, Runs cfg s' tr' t → SoleWriter p tr' → t.procs p = .swept n →
      Reclaimed s t n) ∧
    (s.queue = [] → ∃ tr' t, Runs cfg s' tr' t ∧ (∀ e ∈ tr', e.1 = p) ∧
      ∃ n, t.procs p = .swept n) := by
  have hs := SweepInv.run h₀ hr
  refine ⟨fun tr' t n hr' hsole hx => ?_, fun hqueue => ?_⟩
  · have hrec := (Reclaiming.of_claimed hs.inv hs.ok hst).run hr' hsole
    have hphase := hrec.phase
    rw [hx] at hphase
    generalize hx' : Proc.swept n = x at hphase
    cases hphase with
    | going m hsweep =>
        rw [← hx'] at hsweep
        cases hsweep
    | dead => cases hx'
    | done m hcount hall =>
        obtain rfl := Proc.swept.inj hx'
        have hcert : t.store.certificate = s.store.linkedCertificates := by
          rw [← hrec.linked]
          exact (List.filter_eq_self.mpr fun c hc => decide_eq_true (hall c hc)).symm
        refine ⟨hcert, hrec.links, by rw [← hcert, hcount], fun hempty => ?_⟩
        -- without discoveries there are no links
        rw [hcert, Store.linkedCertificates, List.filter_eq_nil_iff]
        intro c _ hc
        refine (of_decide_eq_true hc) fun l hl => ?_
        obtain ⟨h, hmem, -⟩ := hs.inv.consistent.historyFk l hl
        rw [hempty] at hmem
        cases hmem
  · exact Run.exists_of_decreasing (fun t => t.store.certificate.length)
      (fun _ hready => hready.batch) (Ready.of_claimed hs.inv hs.ok hst hqueue)

/-- The sweep after the deletion of the sample discovery. -/
theorem sweep_reclaims_sample : ∃ tr s now b st s' tr' t, Runs ⟨3600, 500⟩ emptyState tr s ∧
    Step ⟨3600, 500⟩ s (2, .claimed now b st) s' ∧ s.store.certificate = [sampleCertificate] ∧
    Runs ⟨3600, 500⟩ s' tr' t ∧ t.procs 2 = .swept 1 ∧ t.store.certificate = [] ∧
    Reclaimed s t 1 := by
  obtain ⟨s₁, h, hstore₁, hqueue₁, hx₁, hidle⟩ := sample_run ⟨3600, 500⟩
  have h := h.pass (by rw [hx₁]; exact ⟨rfl, rfl, rfl, rfl, rfl⟩) 1
  have h := h.tail fun _ => .deleteBegin 7 (hidle 1 (by decide))
  have h := h.tail fun ha => .deleteLock ⟨1, 7, "d", DiscoveryStatus.completed.value, none⟩
    (State.set_procs_self ..) (by simp [hstore₁, sampleStore]) rfl (ha.rowFree _)
  have h := h.tail fun _ => .deleteCascade (State.set_procs_self ..)
  have h := h.tail fun _ => .deleteRow (State.set_procs_self ..)
  have h := h.tail fun _ => .deleteCommit (State.set_procs_self ..) (by
    simp [hstore₁, sampleStore, Store.deleteHistory, Store.linksOf, sampleLink])
  have h := h.pass (by rw [State.set_procs_self]; exact ⟨rfl, rfl, rfl, rfl, rfl⟩) 2
  obtain ⟨s', h, hstore, hqueue, -⟩ := h.claim 0 (by simp [State.set_procs_of_ne, hidle 2]) hqueue₁
    (by simp only [State.set_store, hstore₁]; decide)
  simp only [State.set_store, hstore₁] at hstore h
  have hr := h.runs
  rw [← List.append_assoc] at hr
  obtain ⟨s, hr, hst⟩ := hr.of_append_singleton
  have hcommit := hst.store_eq
  have hcert : s.store.certificate = [sampleCertificate] := by
    rw [show s.store.certificate = s'.store.certificate by rw [hcommit]; rfl, hstore]
    rfl
  have hhist : s.store.discoveryHistory = [] := by
    rw [show s.store.discoveryHistory = s'.store.discoveryHistory by rw [hcommit]; rfl, hstore]
    rfl
  have hfree : s.queue = [] := by
    cases hst with
    | claimCommit => exact hqueue
  obtain ⟨hdone, hexists⟩ := sweep_reclaims emptyState_initial hr hst
  obtain ⟨tr', t, hr', hown, n, hx⟩ := hexists hfree
  have hrec := hdone tr' t n hr' (fun e he hne => absurd (hown e he) hne) hx
  have hempty := hrec.empty hhist
  obtain rfl : n = 1 := by
    have hcount := hrec.count
    rw [← hrec.certificate, hempty, hcert] at hcount
    exact hcount
  exact ⟨_, s, _, _, _, s', tr', t, hr, hst, hcert, hr', hx, hempty, hrec⟩

end AdcsConnector
