/-
The batches of a cleanup sweep.

* `State.Sealed`: the certificates up to a bound can only become fewer, which
  bounds the number of batches (`batches_le`);
* `SweepOk`: what a claim knows about the highest id, and a batch about the
  certificates it has deleted;
* `Tally`: what a sweep has counted is what its batches have removed;
* `exists_batchDelete`: a batch that commits has run its DELETE statement in
  an earlier state, and the orphans it leaves behind were linked then;
* `sweepSafe_of_runs`: the guarantees of the sweeps over every run.
-/
import AdcsConnector.Store.Lease

namespace AdcsConnector

variable {cfg : Settings} {s₀ s s' : State} {p q : Pid} {e : Event} {tr : List (Pid × Event)}

/-! ### What is counted -/

/-- The ids of the certificates that a batch removes. -/
def Event.removedIds : Event → List ℕ
  | batch ids _ => ids
  | _ => []

/-- The certificates that a persistence adds. -/
def Event.insertedCertificates : Event → List Certificate
  | persisted _ inserted _ => inserted
  | _ => []

/-- The count that a call of `run_cleanup_once` returns. -/
def Event.returned : Event → Option ℕ
  | batch _ returned => returned
  | _ => none

/-- The number of batches committed. -/
def Event.batches : Event → ℕ
  | batch .. => 1
  | _ => 0

/-- The ids of the certificates removed in a run. -/
def removedIds (tr : List (Pid × Event)) : List ℕ := tr.flatMap fun e => e.2.removedIds

/-- A count over the steps of one activity. -/
def own (p : Pid) (f : Event → ℕ) (tr : List (Pid × Event)) : ℕ :=
  ((tr.filter fun e => e.1 = p).map fun e => f e.2).sum

lemma own_append_self (p : Pid) (f : Event → ℕ) (tr : List (Pid × Event)) (e : Event) :
    own p f (tr ++ [(p, e)]) = own p f tr + f e := by
  simp [own]

lemma own_append_of_ne (f : Event → ℕ) (tr : List (Pid × Event)) (e : Event) (hq : q ≠ p) :
    own p f (tr ++ [(q, e)]) = own p f tr := by
  simp [own, hq]

/-- The number of certificates removed by the batches of one sweep. -/
def ownRemoved (p : Pid) : List (Pid × Event) → ℕ := own p fun e => e.removedIds.length

/-- The count returned by one sweep. -/
def ownReturned (p : Pid) : List (Pid × Event) → ℕ := own p fun e => e.returned.getD 0

/-- The number of batches of one sweep. -/
def ownBatches (p : Pid) : List (Pid × Event) → ℕ := own p Event.batches

/-- The bound of a sweep under way and the number of certificates it has
removed. -/
def Proc.sweep : Proc → Option (ℕ × ℕ)
  | sweeping bound n | batchRequested bound n | batchLocked bound n | batchDeleted bound n _ =>
      some (bound, n)
  | _ => none

/-! ### Certificates up to a bound -/

/-- The certificates with ids up to a bound. -/
def Store.upTo (s : Store) (bound : ℕ) : List Certificate :=
  s.certificate.filter fun c => c.id ≤ bound

/-- Every certificate to come has an id above the bound. -/
structure State.Sealed (s : State) (bound : ℕ) : Prop where
  seq : bound < s.certificateSeq
  inserted : ∀ q, ∀ c ∈ (s.procs q).inserted, bound < c.id

lemma State.Sealed.step {bound : ℕ} (hs : s.Sealed bound) (hinv : Inv s)
    (h : Step cfg s (p, e) s') : s'.Sealed bound where
  seq := hs.seq.trans_le h.seq_le.1
  inserted := fun q c hc => by
    by_cases hq : q = p
    · subst hq
      rcases h.inserted_cases hinv with hnil | ⟨-, hsame⟩ | ⟨k, -, hsame, hid, -⟩
      · simp [hnil] at hc
      · exact hs.inserted q c (hsame ▸ hc)
      · rw [hsame] at hc
        rcases List.mem_append.mp hc with hc | hc
        · exact hs.inserted q c hc
        · obtain rfl := List.mem_singleton.mp hc
          exact hid ▸ hs.seq
    · rw [h.procs_of_ne hq] at hc
      exact hs.inserted q c hc

/-- No step adds a certificate up to the bound. -/
lemma State.Sealed.upTo_le {bound : ℕ} (hs : s.Sealed bound) (h : Step cfg s (p, e) s') :
    (s'.store.upTo bound).length ≤ (s.store.upTo bound).length := by
  have hby := h.by_self
  rw [h.store_eq]
  cases e with
  | persisted d ins links =>
      obtain ⟨dh, c, hx, -⟩ := hby
      have hnone : ins.filter (fun c => c.id ≤ bound) = [] := by
        refine List.filter_eq_nil_iff.mpr fun c hc => ?_
        have hlt := hs.inserted p c (by rw [hx]; exact hc)
        simpa using hlt
      simp only [Event.commit, Store.upTo, Store.persist, List.filter_append, hnone,
        List.append_nil]
      exact le_rfl
  | batch ids ret =>
      simp only [Event.commit, Store.upTo, Store.removeCertificates]
      exact (List.filter_sublist.filter _).length_le
  | _ => exact le_rfl

lemma Store.maxCertificateId_lt {s : Store} {n : ℕ} (hn : 0 < n)
    (h : ∀ c ∈ s.certificate, c.id < n) : s.maxCertificateId < n := by
  have hall : ∀ id ∈ s.certificate.map (·.id), id < n := by simpa using h
  rw [Store.maxCertificateId]
  generalize s.certificate.map (·.id) = ids at hall
  induction ids with
  | nil => exact hn
  | cons id ids ih =>
      exact max_lt (hall id List.mem_cons_self) (ih fun i hi => hall i (List.mem_cons_of_mem _ hi))

/-- While one activity holds the exclusive lock, no other changes the
certificates. -/
lemma Inv.certificate_eq (hinv : Inv s) (h : Step cfg s (p, e) s') (hq : q ≠ p)
    (hadv : (s.procs q).advisory = some .exclusive) :
    s'.store.certificate = s.store.certificate := by
  have hby := h.by_self
  have hcomp := (hinv.compatible p q hq.symm).advisory
  rw [h.store_eq]
  cases e with
  | persisted d ins links =>
      obtain ⟨dh, c, hx, -⟩ := hby
      exact absurd (.inr rfl) (hcomp .shared .exclusive (by rw [hx]; rfl) hadv)
  | batch ids ret =>
      obtain ⟨bound, n, hx⟩ := hby
      exact absurd (.inr rfl) (hcomp .exclusive .exclusive (by rw [hx]; rfl) hadv)
  | _ => rfl

/-! ### What a sweep knows -/

/-- What a claim knows about the highest id, and a batch about the certificates
it has deleted. -/
def SweepOk (s : Store) : Proc → Prop
  | .claimBounded _ _ bound => bound = s.maxCertificateId
  | .batchDeleted bound _ ids =>
      ids.Nodup ∧ ∀ id ∈ ids, id ≤ bound ∧ ∃ c ∈ s.certificate, c.id = id
  | _ => True

/-- Only a holder of the exclusive lock knows anything. -/
lemma sweepOk_of_advisory_ne {x : Proc} (h : x.advisory ≠ some .exclusive) (s : Store) :
    SweepOk s x := by
  cases x <;> trivial

lemma SweepOk.of_certificate {s s' : Store} {x : Proc} (h : SweepOk s x)
    (heq : s'.certificate = s.certificate) : SweepOk s' x := by
  cases x <;> simp_all [SweepOk, Store.maxCertificateId]

lemma mem_orphanIds {s : Store} {bound id : ℕ} : id ∈ s.orphanIds bound ↔
    id ≤ bound ∧ s.Orphan id ∧ ∃ c ∈ s.certificate, c.id = id := by
  simp only [Store.orphanIds, List.mem_map, List.mem_filter, Bool.and_eq_true, decide_eq_true_eq]
  constructor
  · rintro ⟨c, ⟨hc, hle, horphan⟩, rfl⟩
    exact ⟨hle, horphan, c, hc, rfl⟩
  · rintro ⟨hle, horphan, c, hc, rfl⟩
    exact ⟨c, ⟨hc, hle, horphan⟩, rfl⟩

lemma Store.Consistent.nodup_orphanIds {s : Store} (h : s.Consistent) (bound : ℕ) :
    (s.orphanIds bound).Nodup :=
  h.certificateId.sublist (List.filter_sublist.map _)

/-- The DELETE statement of a batch. -/
lemma Step.batchDelete_cases (h : Step cfg s (p, e) s') {bound n : ℕ} {ids : List ℕ}
    (hx : s'.procs p = .batchDeleted bound n ids) :
    e = .statement ∧ s.procs p = .batchLocked bound n ∧ ids.Subperm (s.store.orphanIds bound) ∧
      ids.length = min cfg.batchSize (s.store.orphanIds bound).length := by
  cases h with
  | batchDelete ids' hx' hids hlimit =>
      obtain ⟨rfl, rfl, rfl⟩ := Proc.batchDeleted.inj ((State.set_procs_self ..).symm.trans hx)
      exact ⟨rfl, hx', hids, hlimit⟩
  | _ => simp_all

lemma Inv.sweepOk_step (hinv : Inv s) (h : Step cfg s (p, e) s')
    (hok : ∀ q, SweepOk s.store (s.procs q)) (q : Pid) : SweepOk s'.store (s'.procs q) := by
  by_cases hq : q = p
  · subst hq
    cases hx : s'.procs q with
    | batchDeleted bound n ids =>
        obtain ⟨rfl, -, hids, -⟩ := h.batchDelete_cases hx
        rw [h.store_of_statement]
        obtain ⟨l, hperm, hsub⟩ := id hids
        refine ⟨hperm.nodup_iff.mp ((hinv.consistent.nodup_orphanIds bound).sublist hsub),
          fun id hid => ?_⟩
        obtain ⟨hle, -, hc⟩ := mem_orphanIds.mp (hids.subset hid)
        exact ⟨hle, hc⟩
    | claimBounded now st bound =>
        cases h with
        | claimBound hx' =>
            obtain ⟨rfl, rfl, rfl⟩ :=
              Proc.claimBounded.inj ((State.set_procs_self ..).symm.trans hx)
            rfl
        | _ => simp_all
    | _ => trivial
  · rw [h.procs_of_ne hq]
    by_cases hadv : (s.procs q).advisory = some .exclusive
    · exact (hok q).of_certificate (hinv.certificate_eq h hq hadv)
    · exact sweepOk_of_advisory_ne hadv _

/-- The commit of a batch. -/
lemma Step.batch_cases {ids : List ℕ} {ret : Option ℕ} (h : Step cfg s (p, .batch ids ret) s') :
    ∃ bound n, s.procs p = .batchDeleted bound n ids ∧
      (ret = none ∧ cfg.batchSize ≤ ids.length ∧ s'.procs p = .sweeping bound (n + ids.length) ∨
        ret = some (n + ids.length) ∧ ids.length < cfg.batchSize ∧
          s'.procs p = .swept (n + ids.length)) := by
  cases h with
  | @batchCommit p bound n ids hx hfk hmore =>
      exact ⟨bound, n, hx, .inl ⟨rfl, hmore, State.set_procs_self ..⟩⟩
  | @batchLast p bound n ids hx hfk hlast =>
      exact ⟨bound, n, hx, .inr ⟨rfl, hlast, State.set_procs_self ..⟩⟩

/-- A batch takes out as many certificates up to a bound as it has ids, all of
them up to that bound. -/
lemma Inv.upTo_batch (hinv : Inv s) {ids : List ℕ} {ret : Option ℕ}
    (h : Step cfg s (p, .batch ids ret) s') {bound : ℕ} (hnodup : ids.Nodup)
    (hids : ∀ id ∈ ids, id ≤ bound ∧ ∃ c ∈ s.store.certificate, c.id = id) :
    (s'.store.upTo bound).length + ids.length = (s.store.upTo bound).length := by
  have hsub : ids ⊆ (s.store.upTo bound).map (·.id) := fun id hid => by
    obtain ⟨hle, c, hc, rfl⟩ := hids id hid
    exact List.mem_map_of_mem (List.mem_filter.mpr ⟨hc, by simpa using hle⟩)
  have hlen := Rows.length_filter_add (hinv.consistent.certificateId.sublist
    (List.filter_sublist.map _)) hnodup hsub
  rw [h.store_eq]
  simp only [Event.commit, Store.upTo, Store.removeCertificates, List.filter_filter,
    Bool.and_comm] at hlen ⊢
  exact hlen

/-! ### Termination -/

/-- A sweep under way runs a statement, commits a batch, or dies. -/
lemma Step.sweep_cases (h : Step cfg s (p, e) s') {b n : ℕ}
    (hx : (s.procs p).sweep = some (b, n)) :
    (e.batches = 0 ∧ ((s'.procs p).sweep = some (b, n) ∨ s'.procs p = .ended)) ∨
      ∃ ids ret, e = .batch ids ret ∧ s.procs p = .batchDeleted b n ids := by
  cases h with
  | raise reason hdh => cases hp : s.procs p <;> simp_all [Proc.sweep, Proc.tried]
  | _ => simp_all [Proc.sweep, Event.batches]

/-- A sweep that is over takes no more steps. -/
lemma Step.not_over (h : Step cfg s (p, e) s') :
    s.procs p ≠ .ended ∧ ∀ n, s.procs p ≠ .swept n := by
  refine ⟨fun hx => ?_, fun n hx => ?_⟩ <;> cases h <;> simp_all [Proc.active, Proc.tried]

/-- How far a sweep is after `batches` batches, `start` being the number of
certificates up to its bound when it was claimed: each batch but the last has
taken out a full batch of them. -/
structure Progress (cfg : Settings) (p : Pid) (bound start batches : ℕ) (s : State) : Prop where
  inv : Inv s
  ok : ∀ q, SweepOk s.store (s.procs q)
  sealed : s.Sealed bound
  phase : (∃ n, (s.procs p).sweep = some (bound, n)) ∧
      batches * cfg.batchSize + (s.store.upTo bound).length ≤ start ∨
    (s.procs p = .ended ∨ ∃ n, s.procs p = .swept n) ∧
      batches * cfg.batchSize ≤ start + cfg.batchSize

lemma Progress.step {bound start batches : ℕ} (hp : Progress cfg p bound start batches s)
    (h : Step cfg s (q, e) s') :
    Progress cfg p bound start (batches + if q = p then e.batches else 0) s' := by
  refine ⟨hp.inv.step h, hp.inv.sweepOk_step h hp.ok, hp.sealed.step hp.inv h, ?_⟩
  by_cases hq : p = q
  · subst hq
    rw [if_pos rfl]
    rcases hp.phase with ⟨⟨n, hx⟩, hle⟩ | ⟨hover, -⟩
    · rcases h.sweep_cases hx with ⟨hzero, hx' | hx'⟩ | ⟨ids, ret, rfl, hx'⟩
      · have hup := hp.sealed.upTo_le h
        exact .inl ⟨⟨n, hx'⟩, by rw [hzero, Nat.add_zero]; omega⟩
      · exact .inr ⟨.inl hx', by rw [hzero, Nat.add_zero]; omega⟩
      · have hok := hp.ok p
        rw [hx'] at hok
        have hup := hp.inv.upTo_batch h hok.1 hok.2
        obtain ⟨b, m, hx'', hcases⟩ := h.batch_cases
        obtain ⟨rfl, rfl, -⟩ := Proc.batchDeleted.inj (hx''.symm.trans hx')
        rcases hcases with ⟨-, hfull, hs'⟩ | ⟨-, -, hs'⟩
        · refine .inl ⟨⟨m + ids.length, by rw [hs']; rfl⟩, ?_⟩
          rw [Event.batches, Nat.add_mul, Nat.one_mul]
          omega
        · refine .inr ⟨.inr ⟨_, hs'⟩, ?_⟩
          rw [Event.batches, Nat.add_mul, Nat.one_mul]
          omega
    · exact absurd hover (by
        rintro (hx | ⟨n, hx⟩)
        · exact h.not_over.1 hx
        · exact h.not_over.2 n hx)
  · rw [if_neg (Ne.symm hq), h.procs_of_ne hq, Nat.add_zero]
    have hup := hp.sealed.upTo_le h
    exact hp.phase.imp (fun ⟨hx, hle⟩ => ⟨hx, by omega⟩) id

lemma Progress.run {bound start : ℕ} (hp : Progress cfg p bound start 0 s)
    (hr : Runs cfg s tr s') : Progress cfg p bound start (ownBatches p tr) s' := by
  induction hr with
  | refl => exact hp
  | @tail tr e t t' hr hst ih =>
      obtain ⟨q, e⟩ := e
      have hstep := ih.step hst
      by_cases hq : q = p
      · subst hq
        rw [if_pos rfl] at hstep
        have heq : ownBatches q (tr ++ [(q, e)]) = ownBatches q tr + e.batches :=
          own_append_self q Event.batches tr e
        rwa [heq]
      · rw [ownBatches, own_append_of_ne _ _ _ hq]
        rwa [if_neg hq] at hstep

/-- Only a holder of the shared lock has inserted certificates. -/
lemma Proc.inserted_eq_nil {x : Proc} (h : x.advisory ≠ some .shared) : x.inserted = [] := by
  cases x <;> first | rfl | exact absurd rfl h

/-- A claim seals the store up to its bound, the highest id there is. -/
lemma Inv.sealed_of_claimed (hinv : Inv s) (hok : ∀ q, SweepOk s.store (s.procs q))
    (hseq : 0 < s.certificateSeq) {now : ℤ} {b : ℕ} {st : CertificateCleanupState}
    (h : Step cfg s (p, .claimed now b st) s') : s'.Sealed b := by
  have hx : s.procs p = .claimBounded now st b := h.by_self
  have hb := hok p
  rw [hx] at hb
  obtain rfl : b = s.store.maxCertificateId := hb
  refine ⟨(Store.maxCertificateId_lt hseq hinv.certificate_lt).trans_le h.seq_le.1,
    fun q c hc => ?_⟩
  have hnil : (s'.procs q).inserted = [] := by
    by_cases hq : q = p
    · subst hq
      cases h with
      | claimCommit hx' => rw [State.set_procs_self]; rfl
    · rw [h.procs_of_ne hq]
      refine Proc.inserted_eq_nil fun hadv => ?_
      exact (hinv.compatible p q (Ne.symm hq)).advisory .exclusive .shared (by rw [hx]; rfl) hadv
        (.inl rfl)
  simp [hnil] at hc

/-- **A sweep terminates**: from its claim on, the number of its batches is
bounded by the number of certificates at the claim. -/
theorem batches_le (hinv : Inv s) (hok : ∀ q, SweepOk s.store (s.procs q))
    (hseq : 0 < s.certificateSeq) {now : ℤ} {b : ℕ} {st : CertificateCleanupState}
    (h : Step cfg s (p, .claimed now b st) s') {tr' : List (Pid × Event)} {t : State}
    (hr : Runs cfg s' tr' t) :
    ownBatches p tr' ≤ s.store.certificate.length / cfg.batchSize + 1 := by
  have hx' : s'.procs p = .sweeping b 0 := by
    cases h with
    | claimCommit hx => exact State.set_procs_self ..
  have hstart : (s'.store.upTo b).length ≤ s.store.certificate.length := by
    rw [h.store_eq]
    exact List.length_filter_le _ _
  have hp : Progress cfg p b s.store.certificate.length 0 s' :=
    ⟨hinv.step h, hinv.sweepOk_step h hok, hinv.sealed_of_claimed hok hseq h,
      .inl ⟨⟨0, by rw [hx']; rfl⟩, by omega⟩⟩
  have hle : ownBatches p tr' * cfg.batchSize ≤ s.store.certificate.length + cfg.batchSize := by
    rcases (hp.run hr).phase with ⟨-, hle⟩ | ⟨-, hle⟩ <;> omega
  rw [← Nat.add_div_right _ cfg.batchSize_pos]
  exact (Nat.le_div_iff_mul_le cfg.batchSize_pos).mpr hle

/-! ### The counts -/

/-- What a sweep has counted is what its batches have removed; it returns that
count and nothing else. -/
def Tally (removed returned : ℕ) : Proc → Prop
  | .sweeping _ n | .batchRequested _ n | .batchLocked _ n | .batchDeleted _ n _ =>
      removed = n ∧ returned = 0
  | .swept n => removed = n ∧ returned = n
  | .ended => returned = 0
  | _ => removed = 0 ∧ returned = 0

lemma Step.tally (h : Step cfg s (p, e) s') {removed returned : ℕ}
    (ht : Tally removed returned (s.procs p)) :
    Tally (removed + e.removedIds.length) (returned + e.returned.getD 0) (s'.procs p) := by
  cases h with
  | raise reason hdh =>
      cases hp : s.procs p <;> simp_all [Tally, Proc.tried, Event.removedIds, Event.returned]
  | crash hactive =>
      cases hp : s.procs p <;> simp_all [Tally, Proc.active, Event.returned]
  | _ => simp_all [Tally, Event.removedIds, Event.returned]

/-- A certificate id that is not in use and will not be used again. -/
structure State.UsedUp (s : State) (id : ℕ) : Prop where
  seq : id < s.certificateSeq
  certificate : ∀ c ∈ s.store.certificate, c.id ≠ id
  inserted : ∀ q, ∀ c ∈ (s.procs q).inserted, c.id ≠ id

lemma State.UsedUp.step {id : ℕ} (hu : s.UsedUp id) (hinv : Inv s) (h : Step cfg s (p, e) s') :
    s'.UsedUp id where
  seq := hu.seq.trans_le h.seq_le.1
  certificate := fun c hc => by
    rw [h.store_eq] at hc
    rcases Event.mem_certificate hc with hold | ⟨d, ins, links, rfl, hmem⟩
    · exact hu.certificate c hold
    · obtain ⟨dh, c₀, hx, -⟩ := h.by_self
      exact hu.inserted p c (by rw [hx]; exact hmem)
  inserted := fun q c hc => by
    by_cases hq : q = p
    · subst hq
      rcases h.inserted_cases hinv with hnil | ⟨-, hsame⟩ | ⟨k, -, hsame, hid, -⟩
      · simp [hnil] at hc
      · exact hu.inserted q c (hsame ▸ hc)
      · rw [hsame] at hc
        rcases List.mem_append.mp hc with hc | hc
        · exact hu.inserted q c hc
        · obtain rfl := List.mem_singleton.mp hc
          have hlt := hu.seq
          omega
    · rw [h.procs_of_ne hq] at hc
      exact hu.inserted q c hc

/-- The ids that a step removes are distinct, and those of certificates. -/
lemma Step.removedIds_ok (h : Step cfg s (p, e) s') (hok : SweepOk s.store (s.procs p)) :
    e.removedIds.Nodup ∧ ∀ id ∈ e.removedIds, ∃ c ∈ s.store.certificate, c.id = id := by
  cases e with
  | batch ids ret =>
      obtain ⟨bound, n, hx⟩ := h.by_self
      rw [hx] at hok
      exact ⟨hok.1, fun id hid => (hok.2 id hid).2⟩
  | _ => exact ⟨List.nodup_nil, by simp [Event.removedIds]⟩

/-- An id that a step removes is used up. -/
lemma Inv.usedUp_of_removed (hinv : Inv s) (h : Step cfg s (p, e) s')
    (hok : SweepOk s.store (s.procs p)) {id : ℕ} (hid : id ∈ e.removedIds) : s'.UsedUp id := by
  obtain ⟨c, hc, rfl⟩ := (h.removedIds_ok hok).2 id hid
  obtain ⟨ids, ret, rfl⟩ : ∃ ids ret, e = .batch ids ret := by
    cases e <;> simp_all [Event.removedIds]
  refine ⟨(hinv.certificate_lt c hc).trans_le h.seq_le.1, fun c' hc' heq => ?_, fun q c' hc' => ?_⟩
  · rw [h.store_eq] at hc'
    have hnot := (List.mem_filter.mp hc').2
    rw [decide_eq_true_eq, heq] at hnot
    exact hnot hid
  · have hold : c' ∈ (s.procs q).inserted := by
      by_cases hq : q = p
      · subst hq
        obtain ⟨bound, n, -, hcases⟩ := h.batch_cases
        rcases hcases with ⟨-, -, hs'⟩ | ⟨-, -, hs'⟩ <;> simp [hs', Proc.inserted] at hc'
      · rwa [h.procs_of_ne hq] at hc'
    exact ((((hinv.ok q).inserted c' hold).2.2 c hc).1).symm

/-- What a run has removed, counted and returned. -/
structure SweepInv (cfg : Settings) (s₀ : State) (tr : List (Pid × Event)) (s : State) : Prop where
  inv : Inv s
  ok : ∀ q, SweepOk s.store (s.procs q)
  seq : 0 < s.certificateSeq
  claimed : ∀ p b n, (s.procs p).sweep = some (b, n) →
    ∃ now st, (p, Event.claimed now b st) ∈ tr
  nodup : (removedIds tr).Nodup
  usedUp : ∀ id ∈ removedIds tr, s.UsedUp id
  tally : ∀ p, Tally (ownRemoved p tr) (ownReturned p tr) (s.procs p)
  balance : s.store.certificate.length + (removedIds tr).length =
    s₀.store.certificate.length + (tr.flatMap fun e => e.2.insertedCertificates).length

/-- A sweep under way has been claimed with its bound. -/
lemma Step.claimed_of_sweep (h : Step cfg s (p, e) s') {b n : ℕ}
    (hx : (s'.procs p).sweep = some (b, n)) :
    (∃ n', (s.procs p).sweep = some (b, n')) ∨ ∃ now st, e = .claimed now b st := by
  cases h <;> simp_all [Proc.sweep]

/-- The number of certificates after a commit. -/
lemma Inv.length_certificate (hinv : Inv s) (hok : ∀ q, SweepOk s.store (s.procs q))
    (h : Step cfg s (p, e) s') : s'.store.certificate.length + e.removedIds.length =
      s.store.certificate.length + e.insertedCertificates.length := by
  have hby := h.by_self
  rw [h.store_eq]
  cases e with
  | persisted d ins links =>
      simp [Event.commit, Store.persist, Event.removedIds, Event.insertedCertificates]
  | batch ids ret =>
      obtain ⟨bound, n, hx⟩ := hby
      have hids := hok p
      rw [hx] at hids
      refine Rows.length_filter_add hinv.consistent.certificateId hids.1 fun id hid => ?_
      obtain ⟨-, c, hc, rfl⟩ := hids.2 id hid
      exact List.mem_map_of_mem hc
  | _ => rfl

lemma SweepInv.step (hs : SweepInv cfg s₀ tr s) (h : Step cfg s (p, e) s') :
    SweepInv cfg s₀ (tr ++ [(p, e)]) s' where
  inv := hs.inv.step h
  ok := hs.inv.sweepOk_step h hs.ok
  seq := hs.seq.trans_le h.seq_le.1
  claimed := fun q b n hx => by
    by_cases hq : q = p
    · subst hq
      rcases h.claimed_of_sweep hx with ⟨n', hx'⟩ | ⟨now, st, rfl⟩
      · obtain ⟨now, st, hmem⟩ := hs.claimed q b n' hx'
        exact ⟨now, st, List.mem_append_left _ hmem⟩
      · exact ⟨now, st, by simp⟩
    · rw [h.procs_of_ne hq] at hx
      obtain ⟨now, st, hmem⟩ := hs.claimed q b n hx
      exact ⟨now, st, List.mem_append_left _ hmem⟩
  nodup := by
    rw [removedIds, List.flatMap_append, List.flatMap_singleton]
    obtain ⟨hnodup, hmem⟩ := h.removedIds_ok (hs.ok p)
    refine List.nodup_append.mpr ⟨hs.nodup, hnodup, fun id hid id' hid' heq => ?_⟩
    -- what is removed now is there, what has been removed is not
    obtain ⟨c, hc, hcid⟩ := hmem id' hid'
    exact (hs.usedUp id hid).certificate c hc (hcid.trans heq.symm)
  usedUp := fun id hid => by
    rw [removedIds, List.flatMap_append, List.flatMap_singleton] at hid
    rcases List.mem_append.mp hid with hid | hid
    · exact (hs.usedUp id hid).step hs.inv h
    · exact hs.inv.usedUp_of_removed h (hs.ok p) hid
  tally := fun q => by
    by_cases hq : q = p
    · subst hq
      rw [ownRemoved, ownReturned, own_append_self, own_append_self]
      exact h.tally (hs.tally q)
    · rw [ownRemoved, ownReturned, own_append_of_ne _ _ _ (Ne.symm hq),
        own_append_of_ne _ _ _ (Ne.symm hq), h.procs_of_ne hq]
      exact hs.tally q
  balance := by
    have hlen := hs.inv.length_certificate hs.ok h
    have hbal := hs.balance
    simp only [removedIds, List.flatMap_append, List.flatMap_singleton, List.length_append]
      at hbal ⊢
    omega

lemma SweepInv.run (h₀ : Initial s₀) (hr : Runs cfg s₀ tr s) : SweepInv cfg s₀ tr s := by
  induction hr with
  | refl =>
      refine ⟨h₀.inv, fun q => ?_, h₀.certificateSeq_pos, fun p b n hx => ?_, List.nodup_nil,
        by simp [removedIds], fun p => ?_, rfl⟩
      · rw [h₀.procs q]; trivial
      · rw [h₀.procs p] at hx; cases hx
      · rw [h₀.procs p]; exact ⟨rfl, rfl⟩
  | tail _ hst ih => exact ih.step hst

/-- A sweep that has returned stays so. -/
lemma swept_of_runs (hr : Runs cfg s tr s') {n : ℕ} (hx : s.procs p = .swept n) :
    s'.procs p = .swept n := by
  refine hr.invariant (I := fun s => s.procs p = .swept n) (fun a e b ha hst => ?_) hx
  by_cases hp : p = e.1
  · subst hp
    exact absurd ha (hst.not_over.2 n)
  · rwa [hst.procs_of_ne hp]

/-- What a sweep returns is the number of certificates its batches removed. -/
lemma returned_eq (h₀ : Initial s₀) (hr : Runs cfg s₀ tr s) {ids : List ℕ} {n : ℕ}
    (hret : (p, Event.batch ids (some n)) ∈ tr) :
    ownRemoved p tr = n ∧ ownReturned p tr = n := by
  obtain ⟨tr₁, tr₂, m, m', rfl, hr₁, hst, hr₂⟩ := hr.exists_step hret
  obtain ⟨bound, k, -, hcases⟩ := hst.batch_cases
  have hx : m'.procs p = .swept n := by
    rcases hcases with ⟨h, -⟩ | ⟨h, -, hs'⟩
    · cases h
    · rw [hs', Option.some.inj h]
  have htally := (SweepInv.run h₀ hr).tally p
  rw [swept_of_runs hr₂ hx] at htally
  exact htally

/-- **The returned counts add up** to the number of certificates removed, in a
run whose sweeps that removed anything have all returned. -/
lemma sum_returned (h₀ : Initial s₀) (hr : Runs cfg s₀ tr s)
    (hall : ∀ p, ownBatches p tr ≠ 0 → ∃ ids n, (p, Event.batch ids (some n)) ∈ tr) :
    (tr.filterMap fun e => e.2.returned).sum = (removedIds tr).length := by
  have hsum : (tr.map fun e => e.2.returned.getD 0).sum =
      (tr.map fun e => e.2.removedIds.length).sum := by
    refine Rows.sum_map_eq_of_key Prod.fst fun p => ?_
    by_cases hp : ownBatches p tr = 0
    · -- an activity without batches removes and returns nothing
      refine congrArg List.sum (List.map_congr_left fun e he => ?_)
      have hzero : e.2.batches = 0 := List.sum_eq_zero_iff.mp hp _ (List.mem_map_of_mem he)
      cases he2 : e.2 <;> simp_all [Event.batches, Event.returned, Event.removedIds]
    · obtain ⟨ids, n, hret⟩ := hall p hp
      obtain ⟨hrem, hret⟩ := returned_eq h₀ hr hret
      exact hret.trans hrem.symm
  rw [removedIds, List.length_flatMap, ← hsum, Rows.sum_filterMap]

/-! ### Completeness -/

/-- A link that goes was that of a discovery deleted meanwhile. -/
lemma deletes_of_lost (hr : Runs cfg s tr s') {l : DiscoveryCertificate}
    (hl : l ∈ s.store.discoveryCertificate) (hlost : l ∉ s'.store.discoveryCertificate) :
    Deletes l.discoveryId tr := by
  induction hr with
  | refl => exact absurd hl hlost
  | @tail tr e t t' hr hst ih =>
      obtain ⟨q, e⟩ := e
      by_cases hlt : l ∈ t.store.discoveryCertificate
      · rw [hst.store_eq] at hlost
        cases e with
        | persisted d ins links => exact absurd (List.mem_append_left _ hlt) hlost
        | deleted d dropped =>
            have hdrop : l.discoveryId = d ∧ l.id ∈ dropped := by
              by_contra hnot
              exact hlost (List.mem_filter.mpr ⟨hlt, decide_eq_true hnot⟩)
            exact ⟨q, dropped, by simp [hdrop.1]⟩
        | _ => exact absurd hlt hlost
      · obtain ⟨q', dropped, hmem⟩ := ih hlt
        exact ⟨q', dropped, List.mem_append_left _ hmem⟩

/-- A batch about to commit has run its DELETE statement in an earlier state,
with the same certificates, and has done nothing since. -/
lemma exists_batchDelete (h₀ : Initial s₀) (hr : Runs cfg s₀ tr s) {bound n : ℕ} {ids : List ℕ}
    (hx : s.procs p = .batchDeleted bound n ids) :
    ∃ tr₁ m tr₂, tr = tr₁ ++ (p, .statement) :: tr₂ ∧ Runs cfg s₀ tr₁ m ∧
      Runs cfg m ((p, .statement) :: tr₂) s ∧ (∀ e, (p, e) ∉ tr₂) ∧
      m.procs p = .batchLocked bound n ∧ m.store.certificate = s.store.certificate ∧
      ids.Subperm (m.store.orphanIds bound) ∧
      ids.length = min cfg.batchSize (m.store.orphanIds bound).length := by
  induction hr with
  | refl => rw [h₀.procs p] at hx; cases hx
  | @tail tr e t t' hr hst ih =>
      obtain ⟨q, e⟩ := e
      by_cases hq : p = q
      · subst hq
        obtain ⟨rfl, hx', hids, hlimit⟩ := hst.batchDelete_cases hx
        refine ⟨tr, t, [], rfl, hr, .single hst, by simp, hx', ?_, hids, hlimit⟩
        rw [hst.store_of_statement]
      · rw [hst.procs_of_ne hq] at hx
        obtain ⟨tr₁, m, tr₂, rfl, hr₁, hr₂, hnot, hx', hcert, hids, hlimit⟩ := ih hx
        have hcert' := (h₀.inv.run hr).certificate_eq hst hq (by rw [hx]; rfl)
        refine ⟨tr₁, m, tr₂ ++ [(q, e)], by simp, hr₁, hr₂.tail hst, fun e' he' => ?_, hx',
          hcert.trans hcert'.symm, hids, hlimit⟩
        rcases List.mem_append.mp he' with he' | he'
        · exact hnot e' he'
        · exact hq (congrArg Prod.fst (List.mem_singleton.mp he'))

/-- What the last batch of a sweep leaves: at its DELETE statement it takes
every orphan up to the bound; an orphan it leaves at its commit lost its last
link to a DELETE of a discovery in between. -/
structure Complete (cfg : Settings) (s₀ : State) (tr : List (Pid × Event)) (s s' : State)
    (p : Pid) (bound : ℕ) (ids : List ℕ) : Prop where
  exists_delete : ∃ tr₁ m tr₂, tr = tr₁ ++ (p, .statement) :: tr₂ ∧ Runs cfg s₀ tr₁ m ∧
    Runs cfg m ((p, .statement) :: tr₂) s ∧ (∀ e, (p, e) ∉ tr₂) ∧
    (∀ c ∈ m.store.certificate, c.id ≤ bound → m.store.Orphan c.id → c.id ∈ ids) ∧
    ∀ c ∈ s'.store.certificate, c.id ≤ bound → s'.store.Orphan c.id →
      ∃ l ∈ m.store.discoveryCertificate, l.certificateId = c.id ∧ Deletes l.discoveryId tr₂

lemma complete_of_batch (h₀ : Initial s₀) (hr : Runs cfg s₀ tr s) {ids : List ℕ} {n : ℕ}
    (h : Step cfg s (p, .batch ids (some n)) s') {bound k : ℕ}
    (hx : s.procs p = .batchDeleted bound k ids) : Complete cfg s₀ tr s s' p bound ids := by
  obtain ⟨tr₁, m, tr₂, htr, hr₁, hr₂, hnot, -, hcert, hids, hlimit⟩ := exists_batchDelete h₀ hr hx
  have hshort : ids.length < cfg.batchSize := by
    obtain ⟨_, _, _, hcases⟩ := h.batch_cases
    rcases hcases with ⟨hret, -⟩ | ⟨-, hshort, -⟩
    · cases hret
    · exact hshort
  -- a short batch has found every orphan there was
  have hall : ∀ c ∈ m.store.certificate, c.id ≤ bound → m.store.Orphan c.id → c.id ∈ ids := by
    intro c hc hle horphan
    obtain ⟨l, hperm, hsub⟩ := hids
    have hlen : (m.store.orphanIds bound).length ≤ l.length := by
      rw [hperm.length_eq]
      omega
    rw [← hperm.mem_iff, hsub.eq_of_length_le hlen]
    exact mem_orphanIds.mpr ⟨hle, horphan, c, hc, rfl⟩
  refine ⟨tr₁, m, tr₂, htr, hr₁, hr₂, hnot, hall, fun c hc hle horphan => ?_⟩
  rw [h.store_eq] at hc horphan
  obtain ⟨hc, hkept⟩ := List.mem_filter.mp hc
  have hlinked : ¬ m.store.Orphan c.id := fun hm =>
    absurd (hall c (hcert ▸ hc) hle hm) (by simpa using hkept)
  obtain ⟨l, hl, hlc⟩ : ∃ l ∈ m.store.discoveryCertificate, l.certificateId = c.id := by
    simpa [Store.Orphan] using hlinked
  obtain ⟨q, dropped, hmem⟩ := deletes_of_lost hr₂ hl fun hl' => horphan l hl' hlc
  exact ⟨l, hl, hlc, q, dropped, by simpa using hmem⟩

/-! ### The sweeps over every run -/

/-- The guarantees of the sweeps in a state after the trace `tr`. -/
structure SweepSafe (cfg : Settings) (s₀ : State) (tr : List (Pid × Event)) (s : State) :
    Prop where
  bound : ∀ p now b st s', Step cfg s (p, .claimed now b st) s' → b = s.store.maxCertificateId
  terminates : ∀ p now b st s' tr' t, Step cfg s (p, .claimed now b st) s' →
    Runs cfg s' tr' t → ownBatches p tr' ≤ s.store.certificate.length / cfg.batchSize + 1
  deletes : ∀ p ids ret s', Step cfg s (p, .batch ids ret) s' →
    ∃ b, (∃ now st, (p, Event.claimed now b st) ∈ tr) ∧
      (∀ id ∈ ids, id ≤ b ∧ s.store.Orphan id ∧ ∃ c ∈ s.store.certificate, c.id = id) ∧
      ∀ n, ret = some n → Complete cfg s₀ tr s s' p b ids
  returns : ∀ p ids n, (p, Event.batch ids (some n)) ∈ tr → n = ownRemoved p tr
  once : (removedIds tr).Nodup ∧ ∀ id ∈ removedIds tr, ∀ c ∈ s.store.certificate, c.id ≠ id
  balance : s.store.certificate.length + (removedIds tr).length =
    s₀.store.certificate.length + (tr.flatMap fun e => e.2.insertedCertificates).length
  total : (∀ p, ownBatches p tr ≠ 0 → ∃ ids n, (p, Event.batch ids (some n)) ∈ tr) →
    (tr.filterMap fun e => e.2.returned).sum = (removedIds tr).length

/-- **A sweep terminates, is bounded and complete.** -/
theorem sweepSafe_of_runs (h₀ : Initial s₀) (hr : Runs cfg s₀ tr s) : SweepSafe cfg s₀ tr s := by
  have hs := SweepInv.run h₀ hr
  refine ⟨fun p now b st s' hst => ?_, fun p now b st s' tr' t hst hr' =>
    batches_le hs.inv hs.ok hs.seq hst hr',
    fun p ids ret s' hst => ?_, fun p ids n hret => (returned_eq h₀ hr hret).1.symm,
    ⟨hs.nodup, fun id hid => (hs.usedUp id hid).certificate⟩, hs.balance, sum_returned h₀ hr⟩
  · have hok := hs.ok p
    rw [show s.procs p = .claimBounded now st b from hst.by_self] at hok
    exact hok
  · obtain ⟨b, n, hx⟩ := hst.by_self
    have hok := hs.ok p
    rw [hx] at hok
    refine ⟨b, hs.claimed p b n (by rw [hx]; rfl), fun id hid => ?_, fun n hn => ?_⟩
    · obtain ⟨hle, hc⟩ := hok.2 id hid
      exact ⟨hle, (hs.inv.ok p).removed id (by rw [hx]; exact hid), hc⟩
    · subst hn
      exact complete_of_batch h₀ hr hst hx

/-- A sweep removes the certificate of a deleted discovery. -/
theorem sweepSafe_sample : ∃ tr s, Runs ⟨3600, 500⟩ emptyState tr s ∧
    (2, Event.batch [1] (some 1)) ∈ tr ∧ SweepSafe ⟨3600, 500⟩ emptyState tr s := by
  obtain ⟨s₁, h, hstore₁, hqueue₁, hx₁, hidle⟩ := sample_run ⟨3600, 500⟩
  have h := h.pass (by rw [hx₁]; exact ⟨rfl, rfl, rfl, rfl, rfl⟩) 1
  have h := h.tail fun _ => .deleteBegin 7 (hidle 1 (by decide))
  have h := h.tail fun ha => .deleteLock ⟨1, 7, "d", DiscoveryStatus.completed.value, none⟩
    (State.set_procs_self ..) (by simp [hstore₁, sampleStore]) rfl (ha.rowFree _)
  have h := h.tail fun _ => .deleteCascade (State.set_procs_self ..)
  have h := h.tail fun _ => .deleteRow (State.set_procs_self ..)
  have h := h.tail fun _ => .deleteCommit (State.set_procs_self ..) (by
    simp [hstore₁, sampleStore, Store.deleteHistory, Store.linksOf, sampleLink])
  have h := h.pass (by rw [State.set_procs_self]; exact ⟨rfl, rfl, rfl, rfl, rfl⟩) 2
  obtain ⟨s, h, hstore, hqueue, hx, -⟩ := h.claim 0
    (by simp [State.set_procs_of_ne, hidle 2]) hqueue₁
    (by simp only [State.set_store, hstore₁]; decide)
  have hx : s.procs 2 = .sweeping 1 0 := hx.trans (by simp only [State.set_store, hstore₁]; rfl)
  have horphan : s.store.orphanIds 1 = [1] := by
    rw [hstore]
    simp only [State.set_store, hstore₁]
    rfl
  have hlink : s.store.discoveryCertificate = [] := by
    rw [hstore]
    simp only [State.set_store, hstore₁]
    rfl
  have h := h.tail fun _ => .batchBegin hx
  have h := h.tail fun ha => .batchLock (State.set_procs_self ..)
    (show _ = [] ++ _ :: [] by rw [State.set_queue, hqueue]) (ha.grantable _)
  have h := h.tail fun _ => .batchDelete [1] (State.set_procs_self ..)
    (by simp only [State.set_store, horphan]; exact .refl _)
    (by simp only [State.set_store, horphan]; rfl)
  have h := h.tail fun _ => .batchLast (State.set_procs_self ..) (by simp [hlink]) (by decide)
  exact ⟨_, _, h.runs, by simp, sweepSafe_of_runs emptyState_initial h.runs⟩

/-- A discovery is deleted between the DELETE statement of the last batch and
its COMMIT: its certificate, present at the claim, is an orphan after it. -/
theorem batch_leaves_orphan : ∃ tr s s', Runs ⟨3600, 500⟩ emptyState tr s ∧
    (∃ now st, (1, Event.claimed now 1 st) ∈ tr) ∧
    Step ⟨3600, 500⟩ s (1, .batch [] (some 0)) s' ∧
    ∃ c ∈ s'.store.certificate, c.id ≤ 1 ∧ s'.store.Orphan c.id := by
  obtain ⟨s₁, h₁, hstore₁, hqueue₁, hx₁, hidle⟩ := sample_run ⟨3600, 500⟩
  obtain ⟨s, h, hstore, hqueue, hx, hother⟩ :=
    (h₁.pass (by rw [hx₁]; exact ⟨rfl, rfl, rfl, rfl, rfl⟩) 1).claim 0
      (hidle 1 (by decide)) hqueue₁ (by rw [hstore₁]; decide)
  rw [hstore₁] at h hstore hx
  have hcert : s.store.certificate = [sampleCertificate] := by rw [hstore]; rfl
  have hhist : s.store.discoveryHistory = sampleStore.discoveryHistory := by rw [hstore]; rfl
  have hlink : s.store.discoveryCertificate = [sampleLink] := by rw [hstore]; rfl
  -- the last batch finds no orphan
  have h := h.tail fun _ => .batchBegin hx
  have h := h.tail fun ha => .batchLock (State.set_procs_self ..)
    (show _ = [] ++ _ :: [] by rw [State.set_queue, hqueue]) (ha.grantable _)
  have h := h.tail fun _ => .batchDelete [] (State.set_procs_self ..) List.nil_subperm (by
    simp [Store.orphanIds, Store.Orphan, hcert, hlink, sampleCertificate, sampleLink])
  -- the discovery goes
  have hr := h.runs.tail (.deleteBegin (p := 2) 7 (by
    simp [State.set_procs_of_ne, hother 2, hidle 2]))
  have hr := hr.tail (.deleteLock (p := 2) ⟨1, 7, "d", DiscoveryStatus.completed.value, none⟩
    (State.set_procs_self ..) (by simp [hhist, sampleStore]) rfl fun q hq => by
      rw [State.set_procs_of_ne _ _ hq]
      by_cases hq₁ : q = 1
      · simp [hq₁, Proc.row]
      · rw [(h.alone q hq₁).row]
        simp)
  have hr := hr.tail (.deleteCascade (p := 2) (State.set_procs_self ..))
  have hr := hr.tail (.deleteRow (p := 2) (State.set_procs_self ..))
  have hr := hr.tail (.deleteCommit (p := 2) (State.set_procs_self ..) (by
    simp [Store.deleteHistory, Store.linksOf, hlink, sampleLink]))
  refine ⟨_, _, _, hr, ⟨0, claimedState 0 s₁.cleanupSeq sampleStore.firstState, ?_⟩,
    .batchLast (n := 0) (?_ : _ = Proc.batchDeleted 1 0 []) ?_ ?_, sampleCertificate, ?_, ?_, ?_⟩
  · simp [show sampleStore.maxCertificateId = 1 from rfl]
  · simp [State.set_procs_of_ne]
    rfl
  · simp
  · decide
  · simp [hcert, Store.removeCertificates, Store.deleteHistory]
  · decide
  · simp [Store.Orphan, Store.removeCertificates, Store.deleteHistory, hlink, Store.linksOf,
      sampleLink]

end AdcsConnector
