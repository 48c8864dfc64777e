/-
The interval lease of the cleanup sweep.

* `claimTimes`: the timestamps of the claims of a run, in the order they commit;
* `LeaseOk`: a claim under way has read the state row that is still there, the
  exclusive advisory lock keeping every other claim away;
* `LeaseInv`: at most one state row, and the claims so far an interval apart,
  the last one in the row;
* `leaseSafe_of_runs`: the guarantees of the lease over every run.
-/
import AdcsConnector.Store.Safety

namespace AdcsConnector

variable {cfg : Settings} {s₀ s s' : State} {p q : Pid} {e : Event} {tr : List (Pid × Event)}

/-- The timestamp of a claim. -/
def Event.claimTime : Event → Option ℤ
  | claimed now _ _ => some now
  | _ => none

/-- The timestamps of the claims, in commit order. -/
def claimTimes (tr : List (Pid × Event)) : List ℤ := tr.filterMap fun e => e.2.claimTime

/-- `last_run_at` of the state row that a claim reads. -/
def Store.lastRunAt (s : Store) : Option ℤ := s.firstState.bind (·.lastRunAt)

/-! ### The state row -/

/-- The row that a claim reads is the only one. -/
lemma Store.firstState_eq_head? {s : Store} (h : s.certificateCleanupState.length ≤ 1) :
    s.firstState = s.certificateCleanupState.head? := by
  rw [Store.firstState]
  match s.certificateCleanupState, h with
  | [], _ => rfl
  | [_], _ => rfl

/-- A claim saves the row it has read, or the first one. -/
lemma Store.saveState_claimed {s : Store} (h : s.certificateCleanupState.length ≤ 1) (now : ℤ)
    (fresh : ℕ) : (s.saveState (claimedState now fresh s.firstState)).certificateCleanupState =
      [claimedState now fresh s.firstState] := by
  rw [Store.firstState_eq_head? h, Store.saveState]
  match hs : s.certificateCleanupState, h with
  | [], _ => simp
  | [st], _ => simp [claimedState]

/-- Only a claim changes the state rows. -/
lemma Event.cleanupState_commit (h : e.claimTime = none) (s : Store) :
    (e.commit s).certificateCleanupState = s.certificateCleanupState := by
  cases e <;> first | rfl | cases h

/-! ### A claim under way -/

/-- What a claim knows about the state row. -/
def LeaseOk (cfg : Settings) (s : Store) : Proc → Prop
  | .claimRead _ st => st = s.firstState
  | .claimSaved now st | .claimBounded now st _ =>
      leaseDue cfg now s.firstState ∧ ∃ fresh, st = claimedState now fresh s.firstState
  | _ => True

/-- Only a holder of the exclusive lock knows anything about the state row. -/
lemma leaseOk_of_advisory_ne {x : Proc} (h : x.advisory ≠ some .exclusive) (s : Store) :
    LeaseOk cfg s x := by
  cases x <;> trivial

lemma LeaseOk.of_firstState {s s' : Store} {x : Proc} (h : LeaseOk cfg s x)
    (heq : s'.firstState = s.firstState) : LeaseOk cfg s' x := by
  cases x <;> simp_all [LeaseOk]

/-- What a claim knows after its own statement. -/
lemma Step.leaseOk_self (h : Step cfg s (p, e) s') (hok : LeaseOk cfg s.store (s.procs p)) :
    LeaseOk cfg s'.store (s'.procs p) := by
  cases h with
  | claimRead hx hfree => simp [LeaseOk]
  | claimSave hx hdue =>
      rw [hx] at hok
      obtain rfl := hok
      rw [State.set_procs_self]
      exact ⟨hdue, _, rfl⟩
  | claimBound hx =>
      rw [hx] at hok
      rw [State.set_procs_self]
      exact hok
  | _ => rw [State.set_procs_self]; trivial

/-- While a claim is under way, no other claim commits. -/
lemma Inv.leaseOk_step (hinv : Inv s) (h : Step cfg s (p, e) s')
    (hok : ∀ q, LeaseOk cfg s.store (s.procs q)) (q : Pid) :
    LeaseOk cfg s'.store (s'.procs q) := by
  by_cases hq : q = p
  · exact hq ▸ h.leaseOk_self (hok p)
  · rw [h.procs_of_ne hq]
    by_cases hadv : (s.procs q).advisory = some .exclusive
    · refine (hok q).of_firstState ?_
      have htime : e.claimTime = none := by
        have hby := h.by_self
        cases e with
        | claimed now bound st =>
            have hx : s.procs p = .claimBounded now st bound := hby
            exact absurd (.inl rfl) ((hinv.compatible p q (Ne.symm hq)).advisory .exclusive
              .exclusive (by rw [hx]; rfl) hadv)
        | _ => rfl
      rw [Store.firstState, Store.firstState, h.store_eq, Event.cleanupState_commit htime]
    · exact leaseOk_of_advisory_ne hadv _

/-! ### The invariant -/

/-- The lease after the claims at the times `times`. -/
structure LeaseInv (cfg : Settings) (times : List ℤ) (s : State) : Prop where
  inv : Inv s
  one : s.store.certificateCleanupState.length ≤ 1
  ok : ∀ q, LeaseOk cfg s.store (s.procs q)
  spaced : times.Pairwise fun t t' => t + cfg.cleanupIntervalSeconds ≤ t'
  last : ∀ t ∈ times, ∃ t' ∈ s.store.lastRunAt, t ≤ t'
  recent : ∀ t ∈ times.getLast?, s.store.lastRunAt = some t

/-- A claim that commits was due: its timestamp is an interval after
`last_run_at`, and becomes `last_run_at`. -/
lemma Step.claimed_cases {now : ℤ} {bound : ℕ} {st : CertificateCleanupState}
    (h : Step cfg s (p, .claimed now bound st) s')
    (hone : s.store.certificateCleanupState.length ≤ 1)
    (hok : LeaseOk cfg s.store (s.procs p)) :
    s'.store.certificateCleanupState = [st] ∧ st.lastRunAt = some now ∧
      ∀ t ∈ s.store.lastRunAt, t + cfg.cleanupIntervalSeconds ≤ now := by
  have hx : s.procs p = .claimBounded now st bound := h.by_self
  rw [hx] at hok
  obtain ⟨hdue, fresh, rfl⟩ := hok
  refine ⟨?_, ?_, fun t ht => ?_⟩
  · rw [h.store_eq]
    exact Store.saveState_claimed hone now fresh
  · cases s.store.firstState <;> rfl
  · obtain ⟨st, hst, hlast⟩ := Option.bind_eq_some_iff.mp ht
    have hnot := hdue st hst t hlast
    omega

lemma LeaseInv.step {times : List ℤ} (hl : LeaseInv cfg times s)
    (hI : 0 < cfg.cleanupIntervalSeconds) (h : Step cfg s (p, e) s') :
    LeaseInv cfg (times ++ e.claimTime.toList) s' := by
  cases he : e.claimTime with
  | none =>
      have heq : s'.store.certificateCleanupState = s.store.certificateCleanupState := by
        rw [h.store_eq, Event.cleanupState_commit he]
      have hlast : s'.store.lastRunAt = s.store.lastRunAt := by
        rw [Store.lastRunAt, Store.lastRunAt, Store.firstState, Store.firstState, heq]
      simp only [Option.toList_none, List.append_nil]
      exact ⟨hl.inv.step h, heq ▸ hl.one, hl.inv.leaseOk_step h hl.ok, hl.spaced,
        hlast ▸ hl.last, hlast ▸ hl.recent⟩
  | some now =>
      obtain ⟨bound, st, rfl⟩ : ∃ bound st, e = .claimed now bound st := by
        cases e <;> simp_all [Event.claimTime]
      obtain ⟨hrows, hlast, hdue⟩ := h.claimed_cases hl.one (hl.ok p)
      have hnow : s'.store.lastRunAt = some now := by
        rw [Store.lastRunAt, Store.firstState_eq_head? (by simp [hrows]), hrows]
        exact hlast
      have hlater : ∀ t ∈ times, t + cfg.cleanupIntervalSeconds ≤ now := fun t ht => by
        obtain ⟨t', ht', hle⟩ := hl.last t ht
        have hdue' := hdue t' ht'
        omega
      refine ⟨hl.inv.step h, by simp [hrows], hl.inv.leaseOk_step h hl.ok, ?_, fun t ht => ?_,
        fun t ht => ?_⟩
      · refine List.pairwise_append.mpr ⟨hl.spaced, by simp, fun t ht t' ht' => ?_⟩
        obtain rfl : t' = now := by simpa using ht'
        exact hlater t ht
      · refine ⟨now, hnow, ?_⟩
        rcases List.mem_append.mp ht with ht | ht
        · have hle := hlater t ht
          omega
        · obtain rfl : t = now := by simpa using ht
          exact le_rfl
      · obtain rfl : now = t := by simpa [Event.claimTime] using ht
        exact hnow

lemma LeaseInv.run (h₀ : Initial s₀) (hone : s₀.store.certificateCleanupState.length ≤ 1)
    (hI : 0 < cfg.cleanupIntervalSeconds) (hr : Runs cfg s₀ tr s) :
    LeaseInv cfg (claimTimes tr) s := by
  induction hr with
  | refl => exact ⟨h₀.inv, hone, fun q => by rw [h₀.procs q]; trivial, .nil,
      by simp [claimTimes], by simp [claimTimes]⟩
  | @tail tr e t t' hr hst ih =>
      have hstep := ih.step hI hst
      rw [claimTimes, List.filterMap_append]
      have hone : [e].filterMap (fun e => e.2.claimTime) = e.2.claimTime.toList := by
        cases he : e.2.claimTime <;> simp [he]
      rw [hone]
      exact hstep

/-! ### A claim that is not made -/

/-- An activity in a claim that has not been made, or was skipped. -/
def Proc.unclaimed : Proc → Bool
  | claimBegun .. | claimLocked .. | claimRead .. | skipped => true
  | _ => false

/-- Such a claim has committed nothing. -/
lemma Step.unclaimed (h : Step cfg s (p, e) s') (hs' : (s'.procs p).unclaimed = true)
    (hidle : s.procs p ≠ .idle) :
    (s.procs p).unclaimed = true ∧ ∀ store, e.commit store = store := by
  cases h <;> simp_all [Proc.unclaimed, Event.commit]

/-- An activity begun stays begun. -/
lemma not_idle_of_runs (hr : Runs cfg s tr s') (hidle : s.procs p ≠ .idle) :
    s'.procs p ≠ .idle := by
  refine hr.invariant (I := fun s => s.procs p ≠ .idle) (fun a e b ha hst => ?_) hidle
  by_cases hp : p = e.1
  · subst hp
    cases hst <;> simp
  · rwa [hst.procs_of_ne hp]

/-- A call of `_claim_lease` that returns `None` commits nothing. -/
lemma commit_of_unclaimed (hr : Runs cfg s tr s') {now : ℤ} (hx : s.procs p = .claimBegun now)
    (hs' : (s'.procs p).unclaimed = true) :
    ∀ e, (p, e) ∈ tr → ∀ store, e.commit store = store := by
  induction hr with
  | refl => simp
  | @tail tr e t t' hr hst ih =>
      obtain ⟨q, e⟩ := e
      intro e' he'
      by_cases hq : p = q
      · subst hq
        obtain ⟨hun, hcommit⟩ := hst.unclaimed hs' (not_idle_of_runs hr (by simp [hx]))
        rcases List.mem_append.mp he' with he' | he'
        · exact ih hun e' he'
        · obtain rfl : e' = e := by simpa using he'
          exact hcommit
      · rw [hst.procs_of_ne hq] at hs'
        rcases List.mem_append.mp he' with he' | he'
        · exact ih hs' e' he'
        · exact absurd (congrArg Prod.fst (List.mem_singleton.mp he')) hq

/-! ### The lease over every run -/

/-- The guarantees of the lease in a state after the trace `tr`. -/
structure LeaseSafe (cfg : Settings) (tr : List (Pid × Event)) (s : State) : Prop where
  one : s.store.certificateCleanupState.length ≤ 1
  spaced : (claimTimes tr).Pairwise fun t t' => t + cfg.cleanupIntervalSeconds ≤ t'
  increasing : (claimTimes tr).Pairwise (· < ·)
  lastRunAt : ∀ t ∈ (claimTimes tr).getLast?, s.store.lastRunAt = some t
  skipped : ∀ p now tr' s', s.procs p = .claimBegun now → Runs cfg s tr' s' →
    s'.procs p = .skipped → ∀ e, (p, e) ∈ tr' → ∀ store, e.commit store = store
  exclusive : ∀ p now bound st s', Step cfg s (p, .claimed now bound st) s' →
    ∀ q, q ≠ p → (s.procs q).advisory = none

/-- **One sweep per interval.** From a store with at most one state row there
is never more than one; the claims are an interval apart in commit order, so
that `last_run_at` increases strictly; a call that returns `None` changes
nothing; and a claim commits only while nobody else holds the advisory lock. -/
theorem leaseSafe_of_runs (h₀ : Initial s₀)
    (hone : s₀.store.certificateCleanupState.length ≤ 1) (hI : 0 < cfg.cleanupIntervalSeconds)
    (hr : Runs cfg s₀ tr s) : LeaseSafe cfg tr s := by
  have hl := LeaseInv.run h₀ hone hI hr
  refine ⟨hl.one, hl.spaced, hl.spaced.imp (by omega), hl.recent,
    fun p now tr' s' hx hr' hs' => commit_of_unclaimed hr' hx (by rw [hs']; rfl),
    fun p now bound st s' hst q hq => ?_⟩
  have hx : s.procs p = .claimBounded now st bound := hst.by_self
  cases hadv : (s.procs q).advisory with
  | none => rfl
  | some m => exact absurd (.inl rfl) ((hl.inv.compatible p q hq.symm).advisory .exclusive m
      (by rw [hx]; rfl) hadv)

/-- A claim that is due and unhindered is made. -/
lemma SoloRun.claim (h : SoloRun cfg p s₀ tr s) (now : ℤ) (hx : s.procs p = .idle)
    (hqueue : s.queue = []) (hdue : leaseDue cfg now s.store.firstState) :
    ∃ s', SoloRun cfg p s₀ (tr ++ (List.replicate 5 (p, .statement) ++
        [(p, .claimed now s.store.maxCertificateId
          (claimedState now s.cleanupSeq s.store.firstState))])) s' ∧
      s'.store = s.store.saveState (claimedState now s.cleanupSeq s.store.firstState) ∧
      s'.queue = [] ∧ s'.procs p = .sweeping s.store.maxCertificateId 0 ∧
      ∀ q, q ≠ p → s'.procs q = s.procs q := by
  have h := h.tail fun _ => .claimBegin now hx
  have h := h.tail fun ha => .claimLock (State.set_procs_self ..) hqueue (ha.grantable _)
  have h := h.tail fun ha => .claimRead (State.set_procs_self ..) fun q hq => (ha q hq).lease
  have h := h.tail fun _ => .claimSave (State.set_procs_self ..) hdue
  have h := h.tail fun _ => .claimBound (State.set_procs_self ..)
  have h := h.tail fun _ => .claimCommit (State.set_procs_self ..)
  simp only [List.append_assoc, List.cons_append, List.nil_append] at h
  refine ⟨_, h, rfl, hqueue, State.set_procs_self .., fun q hq => ?_⟩
  simp [State.set_procs_of_ne, hq]

/-- Two claims an hour and more apart. -/
theorem leaseSafe_sample : ∃ tr s, Runs ⟨3600, 500⟩ emptyState tr s ∧ claimTimes tr = [0, 4000] ∧
    LeaseSafe ⟨3600, 500⟩ tr s := by
  have h : SoloRun ⟨3600, 500⟩ 0 emptyState [] emptyState :=
    ⟨.refl, fun q hq => ⟨rfl, rfl, rfl, rfl, rfl⟩⟩
  obtain ⟨s, h, hstore, hqueue, hx, hother⟩ := h.claim 0 rfl rfl
    (by simp [leaseDue, emptyState, Store.firstState])
  have h' : SoloRun ⟨3600, 500⟩ 1 emptyState _ s :=
    h.pass (by rw [hx]; exact ⟨rfl, rfl, rfl, rfl, rfl⟩) 1
  obtain ⟨s', h', -⟩ := h'.claim 4000 (by rw [hother 1 (by decide)]; rfl) hqueue
    (by rw [hstore]; decide)
  exact ⟨_, s', h'.runs, rfl, leaseSafe_of_runs emptyState_initial (by decide) (by decide) h'.runs⟩

end AdcsConnector
