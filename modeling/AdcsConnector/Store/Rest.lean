/-
Every run comes to rest.

Deadlock freedom says that something can always go on. Here is that it cannot go on
for ever, the pages of a collection apart: once no more requests come in, the
statements left are finitely many, in whatever order they run, and when the last one
has run every discovery has ended whose collection has.

* `Proc.stage`, `Proc.loop`: how much an activity has before it, its loops apart, and
  how much of the loop it is in;
* `Continues`: the steps of activities that have begun;
* `Settles`: those of activities that do not wait for the pages of a host;
* `Underway.terminates`: no run goes on for ever but by pages;
* `Underway.exists_settles`: while an activity has neither ended nor collects, some
  activity can go on;
* `Step.pending_kept`: a thread that does not die ends its discovery;
* `comesToRest_of_runs`: the three together, over every run.
-/
import AdcsConnector.Store.Deadlock
import AdcsConnector.Store.Stranded
import AdcsConnector.Store.Sweep
import AdcsConnector.Library.Termination

namespace AdcsConnector

variable {cfg : Settings} {s₀ s s' t : State} {p q : Pid} {e : Event} {tr : List (Pid × Event)}
  {P : Finset Pid}

/-! ### What an activity has before it -/

namespace Proc

/-- A bound on the statements of an activity to its end, one for each of its loops. -/
def stage : Proc → ℕ
  | idle | completed .. | swept .. | skipped | ended => 0
  | sweeping .. | batchRequested .. | batchLocked .. | batchDeleted .. => 1
  | failedUpdated .. | deleteDeleted .. | claimBounded .. => 2
  | failing .. | deleteCascaded .. | claimSaved .. => 3
  | persistAbsent .. | saved .. | deleteLocked .. | claimRead .. => 4
  | linked .. | deleteBegun .. | claimLocked .. => 5
  | selected .. | claimBegun .. => 6
  | inserting .. => 7
  | persistLocked .. => 8
  | persistRequested .. => 9
  | collected .. => 10
  | collecting .. => 11
  | threadStarted .. => 12
  | createSaved .. => 13
  | createChecked .. => 14
  | createBegun .. => 15

/-- What is left of the bulk insert, or of the current batch. -/
def loop : Proc → ℕ
  | inserting _ _ todo _ => todo.length
  | sweeping .. => 3
  | batchRequested .. => 2
  | batchLocked .. => 1
  | _ => 0

/-- A thread that waits for the pages of its host. -/
def collects : Proc → Bool
  | collecting .. => true
  | _ => false

lemma eq_collecting_of_collects {x : Proc} (h : x.collects = true) : ∃ dh, x = .collecting dh := by
  cases x <;> first | exact ⟨_, rfl⟩ | cases h

lemma collects_of_inTransaction {x : Proc} (h : x.inTransaction = true) : x.collects = false := by
  cases x <;> first | rfl | cases h

lemma active_of_pending {x : Proc} {r : DiscoveryHistory} (h : x.pending = some r) :
    x.active = true := by
  cases x <;> first | rfl | simp [pending, origin] at h

lemma active_of_requested {x : Proc} (h : x.requested.isSome) : x.active = true := by
  cases x <;> first | rfl | simp [requested] at h

end Proc

/-- Only an activity that has begun and not ended takes a step, but for the first. -/
lemma Step.active (h : Step cfg s (p, e) s') (hx : s.procs p ≠ .idle) :
    (s.procs p).active = true := by
  cases h with
  | raise reason htried => cases hp : s.procs p <;> simp_all [Proc.tried, Proc.active]
  | crash hactive => exact hactive
  | _ => simp_all [Proc.active]

/-- A page leaves everything as it is. -/
lemma Step.eq_of_paged (h : Step cfg s (p, .paged) s') :
    s' = s ∧ ∃ dh, s.procs p = .collecting dh := by
  cases h with
  | page hp => exact ⟨by rw [State.set, ← hp, Function.update_eq_self], _, hp⟩

/-- Every other step brings an activity to a later stage, or on in its loop: a row less
to insert, a statement of a batch, or a batch that has deleted something. -/
lemma Step.stage_cases (h : Step cfg s (p, e) s') (hx : s.procs p ≠ .idle) (hpaged : e ≠ .paged) :
    (s'.procs p).stage < (s.procs p).stage ∨
      (s'.procs p).stage = (s.procs p).stage ∧
        ((e.removedIds = [] ∧ e.insertedCertificates = [] ∧
            (s'.procs p).loop < (s.procs p).loop) ∨
          (e.removedIds ≠ [] ∧ e.insertedCertificates = [] ∧ (s'.procs p).loop = 3)) := by
  cases h with
  | createBegin request hidle => exact absurd hidle hx
  | deleteBegin uuid hidle => exact absurd hidle hx
  | claimBegin now hidle => exact absurd hidle hx
  | page => exact absurd rfl hpaged
  | raise reason htried =>
      left
      cases hp : s.procs p <;> simp_all [Proc.tried, Proc.stage]
  | crash hactive =>
      left
      cases hp : s.procs p <;> simp_all [Proc.active, Proc.stage]
  | insertConflict hp =>
      exact .inr ⟨by simp [hp, Proc.stage], .inl ⟨rfl, rfl, by simp [hp, Proc.loop]⟩⟩
  | insertNew hp =>
      exact .inr ⟨by simp [hp, Proc.stage], .inl ⟨rfl, rfl, by simp [hp, Proc.loop]⟩⟩
  | batchBegin hp =>
      exact .inr ⟨by simp [hp, Proc.stage], .inl ⟨rfl, rfl, by simp [hp, Proc.loop]⟩⟩
  | batchLock hp =>
      exact .inr ⟨by simp [hp, Proc.stage], .inl ⟨rfl, rfl, by simp [hp, Proc.loop]⟩⟩
  | batchDelete ids hp =>
      exact .inr ⟨by simp [hp, Proc.stage], .inl ⟨rfl, rfl, by simp [hp, Proc.loop]⟩⟩
  | @batchCommit p bound n ids hp hfk hmore =>
      have hpos : 0 < ids.length := cfg.batchSize_pos.trans hmore
      exact .inr ⟨by simp [hp, Proc.stage],
        .inr ⟨List.ne_nil_of_length_pos hpos, rfl, by simp [Proc.loop]⟩⟩
  | _ => left; simp_all [Proc.stage]

/-! ### No run goes on for ever -/

/-- The steps of activities that have begun: no request comes in. -/
abbrev Continues (cfg : Settings) : State → Pid × Event → State → Prop :=
  Restricted (Step cfg) fun s e _ => s.procs e.1 ≠ .idle

/-- The steps of activities that have begun and do not collect. -/
abbrev Settles (cfg : Settings) : State → Pid × Event → State → Prop :=
  Restricted (Continues cfg) fun s e _ => (s.procs e.1).collects = false

lemma ne_paged_of_settles (h : Settles cfg s (p, e) s') : e ≠ .paged := by
  rintro rfl
  obtain ⟨-, dh, hp⟩ := h.1.1.eq_of_paged
  have hcollects := h.2
  simp [hp, Proc.collects] at hcollects

/-- A run of these is one of the system. -/
lemma runs_of_continues (h : Run (Continues cfg) s tr s') : Runs cfg s tr s' := by
  induction h with
  | refl => exact .refl
  | tail _ hst ih => exact ih.tail hst.1

/-- A state in which only the activities of `P` have begun. -/
structure Underway (P : Finset Pid) (s : State) : Prop where
  inv : Inv s
  locks : LockInv s
  ok : ∀ q, SweepOk s.store (s.procs q)
  begun : ∀ q, s.procs q ≠ .idle → q ∈ P

lemma Underway.step (hu : Underway P s) (h : Continues cfg s (p, e) s') : Underway P s' where
  inv := hu.inv.step h.1
  locks := hu.locks.step h.1
  ok := hu.inv.sweepOk_step h.1 hu.ok
  begun := fun q hq => by
    by_cases hqp : q = p
    · exact hqp ▸ hu.begun p h.2
    · rw [h.1.procs_of_ne hqp] at hq
      exact hu.begun q hq

lemma Underway.of_runs (h₀ : Initial s₀) (hr : Runs cfg s₀ tr s) :
    Underway (tr.map Prod.fst).toFinset s where
  inv := h₀.inv.run hr
  locks := hr.invariant (fun _ _ _ hl hst => hl.step hst) h₀.lockInv
  ok := (SweepInv.run h₀ hr).ok
  begun := fun _ hq => List.mem_toFinset.mpr (exists_mem_of_not_idle h₀ hr hq)

/-- The stages before all activities and, where these stay, the certificates and the
loops. -/
def State.measure (P : Finset Pid) (s : State) : ℕ ×ₗ ℕ :=
  toLex (∑ q ∈ P, (s.procs q).stage,
    4 * s.store.certificate.length + ∑ q ∈ P, (s.procs q).loop)

lemma Underway.measure_lt (hu : Underway P s) (h : Continues cfg s (p, e) s')
    (hpaged : e ≠ .paged) : s'.measure P < s.measure P := by
  have hp := hu.begun p h.2
  have hstage := sum_step Proc.stage hp fun q hq => h.1.procs_of_ne hq
  have hloop := sum_step Proc.loop hp fun q hq => h.1.procs_of_ne hq
  have hlength := hu.inv.length_certificate hu.ok h.1
  rw [State.measure, State.measure, Prod.Lex.toLex_lt_toLex]
  rcases h.1.stage_cases h.2 hpaged with
    hlt | ⟨heq, ⟨hremoved, hinserted, hlt⟩ | ⟨hne, hinserted, hthree⟩⟩
  · exact .inl (by omega)
  · rw [hremoved, hinserted] at hlength
    exact .inr ⟨by omega, by omega⟩
  · have hpos := List.length_pos_of_ne_nil hne
    rw [hinserted, List.length_nil] at hlength
    exact .inr ⟨by omega, by omega⟩

/-- No run goes on for ever without pages. -/
lemma Underway.terminates (hu : Underway P s) (cfg : Settings) :
    Terminates (Restricted (Continues cfg) fun _ e _ => e.2 ≠ .paged) s :=
  terminates_of_measure wellFounded_lt (State.measure P) (fun _ _ _ hu hst => hu.step hst.1)
    (fun _ _ _ hu hst => hu.measure_lt hst.1 hst.2) hu

lemma Underway.settles (hu : Underway P s) (cfg : Settings) : Terminates (Settles cfg) s :=
  terminates_of_measure wellFounded_lt (State.measure P) (fun _ _ _ hu hst => hu.step hst.1)
    (fun _ _ _ hu hst => hu.measure_lt hst.1 (ne_paged_of_settles hst)) hu

/-- A run that goes on for ever comes to where only pages are asked for. -/
lemma Underway.exists_paged (hu : Underway P s) {f : ℕ → State} {e : ℕ → Pid × Event} (hf : f 0 = s)
    (hstep : ∀ n, Continues cfg (f n) (e n) (f (n + 1))) :
    ∃ N, ∀ n, N ≤ n → f n = f N ∧ ∃ p dh, e n = (p, .paged) ∧ (f N).procs p = .collecting dh := by
  have hnext : ∀ n, f (n + 1) = f n ∨ ∃ a,
      Restricted (Continues cfg) (fun _ e _ => e.2 ≠ .paged) (f n) a (f (n + 1)) := by
    intro n
    by_cases hpaged : (e n).2 = .paged
    · have hst : Step cfg (f n) ((e n).1, .paged) (f (n + 1)) := hpaged ▸ (hstep n).1
      exact .inl hst.eq_of_paged.1
    · exact .inr ⟨e n, hstep n, hpaged⟩
  have hall : ∀ n, Underway P (f n) := by
    intro n
    induction n with
    | zero => exact hf ▸ hu
    | succ n ih => exact ih.step (hstep n)
  obtain ⟨N, hN⟩ := (hu.terminates cfg).exists_constant hf hnext
  refine ⟨N, fun n hn => ⟨hN n hn, ?_⟩⟩
  have hpaged : (e n).2 = .paged := by
    by_contra hne
    have hlt := (hall n).measure_lt (hstep n) hne
    rw [hN n hn, hN (n + 1) (by omega)] at hlt
    exact lt_irrefl _ hlt
  have hst : Step cfg (f n) ((e n).1, .paged) (f (n + 1)) := hpaged ▸ (hstep n).1
  obtain ⟨dh, hp⟩ := hst.eq_of_paged.2
  exact ⟨(e n).1, dh, Prod.ext rfl hpaged, hN n hn ▸ hp⟩

/-! ### Something can go on -/

/-- While an activity has neither ended nor collects, some activity can go on without a
failure. -/
lemma Underway.exists_settles (hu : Underway P s) (hx : (s.procs p).active = true)
    (hcollects : (s.procs p).collects = false) :
    ∃ q e s', Settles cfg s (q, e) s' ∧ e.Forward := by
  by_cases hin : ∃ q, (s.procs q).inTransaction = true
  · -- of the open transactions, one waits for nobody
    have hfin : {q | (s.procs q).inTransaction = true}.Finite :=
      P.finite_toSet.subset fun q hq => hu.begun q fun hidle => by
        simp [hidle, Proc.inTransaction] at hq
    obtain ⟨q, hq, hsink⟩ := hu.locks.acyclic.exists_sink hfin hin
    obtain ⟨e, s', hst, hforward⟩ := (hu.inv.exists_step_of_not_waiting hu.locks hq fun u hu =>
      hsink u (inTransaction_of_waitsFor hu) hu : ∃ e s', Step cfg s (q, e) s' ∧ e.Forward)
    have hq : (s.procs q).inTransaction = true := hq
    refine ⟨q, e, s', ⟨⟨hst, fun hidle => ?_⟩, ?_⟩, hforward⟩
    · have hidle : s.procs q = .idle := hidle
      simp [hidle, Proc.inTransaction] at hq
    · exact Proc.collects_of_inTransaction hq
  · have hout := fun q hq => hin ⟨q, hq⟩
    have hnot : s.procs p ≠ .idle := fun hidle => by simp [hidle, Proc.active] at hx
    cases hp : s.procs p with
    | threadStarted row =>
        by_cases hrow : ∃ r ∈ s.store.discoveryHistory, r.uuid = row.uuid
        · obtain ⟨dh, hdh, huuid⟩ := hrow
          exact ⟨p, _, _, ⟨⟨.threadGet dh hp hdh huuid, hnot⟩, hcollects⟩, trivial⟩
        · exact ⟨p, _, _, ⟨⟨.threadGone hp fun r hr heq => hrow ⟨r, hr, heq⟩, hnot⟩, hcollects⟩,
            trivial⟩
    | collecting dh => simp [hp, Proc.collects] at hcollects
    | collected dh c => exact ⟨p, _, _, ⟨⟨.persistBegin hp, hnot⟩, hcollects⟩, trivial⟩
    | sweeping bound n => exact ⟨p, _, _, ⟨⟨.batchBegin hp, hnot⟩, hcollects⟩, trivial⟩
    | idle => exact absurd hp hnot
    | completed | swept | skipped | ended => simp [hp, Proc.active] at hx
    | _ => exact absurd (by rw [hp]; rfl) (hout p)

lemma Underway.stuck_or_forward (hu : Underway P s) (cfg : Settings) :
    Stuck (Settles cfg) s ∨ ∃ e s', e.2.Forward ∧ Settles cfg s e s' := by
  by_cases hactive : ∃ p, (s.procs p).active = true ∧ (s.procs p).collects = false
  · obtain ⟨p, hp, hcollects⟩ := hactive
    obtain ⟨q, e, s', hst, hforward⟩ := (hu.exists_settles hp hcollects :
      ∃ q e s', Settles cfg s (q, e) s' ∧ e.Forward)
    exact .inr ⟨(q, e), s', hforward, hst⟩
  · exact .inl fun e s' hst => hactive ⟨e.1, hst.1.1.active hst.1.2, hst.2⟩

/-- Where nothing can go on but the collections, everything else is over. -/
lemma Underway.over_of_stuck (hu : Underway P s) (hstuck : Stuck (Settles cfg) s) (p : Pid)
    (hactive : (s.procs p).active = true) : (s.procs p).collects = true := by
  cases hcollects : (s.procs p).collects with
  | true => rfl
  | false =>
      obtain ⟨q, e, s', hst, -⟩ := (hu.exists_settles hactive hcollects :
        ∃ q e s', Settles cfg s (q, e) s' ∧ e.Forward)
      exact absurd hst (hstuck (q, e) s')

/-! ### Discoveries that end -/

/-- The row that a persistence has not found stays away. -/
def State.AbsentOk (s : State) : Prop := ∀ p dh, s.procs p = .persistAbsent dh →
  ∀ r ∈ s.store.discoveryHistory, r.id ≠ dh.id

lemma State.AbsentOk.step (ha : s.AbsentOk) (hinv : Inv s) (h : Step cfg s (p, e) s') :
    s'.AbsentOk := by
  intro q dh hx r hr hid
  by_cases hq : q = p
  · subst hq
    cases h with
    | selectAbsent hp hrow =>
        rw [State.set_procs_self] at hx
        cases hx
        exact hrow r hr hid
    | _ => simp at hx
  · rw [h.procs_of_ne hq] at hx
    rw [h.store_eq] at hr
    rcases Event.mem_history hr with ⟨r', hr', hid', -⟩ | rfl
    · exact ha q dh hx r' hr' (hid'.trans hid)
    · have hsaved : s.procs p = .createSaved r := h.by_self
      exact ((hinv.compatible p q (Ne.symm hq)).origin r dh (by rw [hsaved]; rfl)
        (by rw [hx]; rfl)).1 hid

/-- A thread leaves its discovery in progress only by dying. -/
lemma Step.pending_kept (h : Step cfg s (p, e) s') (hinv : Inv s) (ha : s.AbsentOk)
    {d r : DiscoveryHistory} (hd : (s.procs p).pending = some d) (hcrash : e ≠ .crashed)
    (hr : r ∈ s.store.discoveryHistory) (hid : r.id = d.id)
    (hstatus : e.statusOf r.id r.status = DiscoveryStatus.inProgress.value) :
    ∃ d', (s'.procs p).pending = some d' ∧ d'.id = r.id := by
  have huuid : r.uuid = d.uuid :=
    (((hinv.ok p).origin d (Proc.origin_of_pending hd)).2.2 r hr).mpr hid
  cases h with
  | createSave uuid hx hfresh => simp [hx, Proc.pending, Proc.origin] at hd
  | @createCommit p row hx =>
      obtain rfl : row = d := by simpa [hx, Proc.pending, Proc.origin] using hd
      exact ⟨row, by simp [Proc.pending, Proc.origin], hid.symm⟩
  | @threadGet p row dh hx hdh hrow =>
      obtain rfl : row = d := by simpa [hx, Proc.pending, Proc.origin] using hd
      have heq := (((hinv.ok p).origin row (by rw [hx]; rfl)).2.2 dh hdh).mp hrow
      exact ⟨dh, by simp [Proc.pending, Proc.origin], heq.trans hid.symm⟩
  | @threadGone p row hx hgone =>
      obtain rfl : row = d := by simpa [hx, Proc.pending, Proc.origin] using hd
      exact absurd huuid (hgone r hr)
  | @absentCommit p dh hx =>
      obtain rfl : dh = d := by simpa [hx, Proc.pending, Proc.origin] using hd
      exact absurd hid (ha p dh hx r hr)
  | @persistCommit p dh c ins links hx hfk =>
      obtain rfl : dh = d := by simpa [hx, Proc.pending, Proc.origin] using hd
      rw [Event.statusOf, if_pos hid.symm] at hstatus
      cases DiscoveryStatus.value_injective hstatus
  | @raise p dh reason htried =>
      obtain rfl : dh = d := by
        cases hp : s.procs p <;> rw [hp] at htried hd <;>
          simp_all [Proc.tried, Proc.pending, Proc.origin]
      exact ⟨dh, by simp [Proc.pending, Proc.origin], hid.symm⟩
  | @failCommit p dh reason hx =>
      obtain rfl : dh = d := by simpa [hx, Proc.pending, Proc.origin] using hd
      rw [Event.statusOf, if_pos hid.symm] at hstatus
      cases DiscoveryStatus.value_injective hstatus
  | _ => simp_all [Proc.pending, Proc.origin]

/-- A discovery in progress has its thread, unless a thread has died. -/
def Attended (n₀ : ℕ) (tr : List (Pid × Event)) (s : State) : Prop :=
  (∀ q, (q, Event.crashed) ∉ tr) → ∀ r ∈ s.store.discoveryHistory, n₀ ≤ r.id →
    r.status = DiscoveryStatus.inProgress.value → ∃ p d, (s.procs p).pending = some d ∧ d.id = r.id

lemma Attended.step {n₀ : ℕ} (hatt : Attended n₀ tr s) (hinv : Inv s) (ha : s.AbsentOk)
    (h : Step cfg s (p, e) s') : Attended n₀ (tr ++ [(p, e)]) s' := by
  intro hcrash r hr hn hstatus
  simp only [List.mem_append, List.mem_singleton, not_or] at hcrash
  rcases h.status_eq hinv hr with rfl | ⟨r₀, hr₀, hid, -, heq⟩
  · cases h with
    | createCommit hx => exact ⟨p, r, by simp [Proc.pending, Proc.origin], rfl⟩
  · have hstatus₀ : r₀.status = DiscoveryStatus.inProgress.value := by
      rcases e.statusOf_cases r₀.id r₀.status with hsame | hsame | hsame
      · rw [← hsame, ← heq, hstatus]
      all_goals cases DiscoveryStatus.value_injective (hstatus.symm.trans (heq.trans hsame))
    obtain ⟨q, d, hd, hdid⟩ := hatt (fun q => (hcrash q).1) r₀ hr₀ (hid ▸ hn) hstatus₀
    by_cases hq : q = p
    · subst hq
      obtain ⟨d', hd', hid'⟩ := h.pending_kept hinv ha hd
        (fun hc => (hcrash q).2 (by rw [hc])) hr₀ hdid.symm (heq ▸ hstatus)
      exact ⟨q, d', hd', hid'.trans hid⟩
    · exact ⟨q, d, by rw [h.procs_of_ne hq]; exact hd, hdid.trans hid⟩

lemma attended_of_runs (h₀ : Initial s₀) (hr : Runs cfg s₀ tr s) :
    Attended s₀.historySeq tr s := by
  refine hr.trace_invariant (I := fun s => Inv s ∧ s.AbsentOk)
    (fun _ _ _ hi hst => ⟨hi.1.step hst, hi.2.step hi.1 hst⟩)
    (fun tr a e b hi hatt hst => hatt.step hi.1 hi.2 hst)
    ⟨h₀.inv, fun p dh hx => ?_⟩ fun _ r hr hn => ?_
  · rw [h₀.procs p] at hx
    cases hx
  · exact absurd (h₀.history_lt r hr).1 (by omega)

/-! ### Every run comes to rest -/

/-- Everything is over but the collections under way: no other activity goes on, nobody
waits for a lock, and unless a thread has died every discovery created since `n₀` is
completed or failed or being collected. -/
structure AtRest (n₀ : ℕ) (tr : List (Pid × Event)) (s : State) : Prop where
  inactive : ∀ p, (s.procs p).active = true → ∃ dh, s.procs p = .collecting dh
  queue : s.queue = []
  ended : (∀ q, (q, Event.crashed) ∉ tr) → ∀ r ∈ s.store.discoveryHistory, n₀ ≤ r.id →
    r.status = DiscoveryStatus.completed.value ∨ r.status = DiscoveryStatus.failed.value ∨
      ∃ p dh, s.procs p = .collecting dh ∧ dh.id = r.id

lemma atRest_of_stuck (h₀ : Initial s₀) (hr : Runs cfg s₀ tr s) (hu : Underway P s)
    (hstuck : Stuck (Settles cfg) s) : AtRest s₀.historySeq tr s where
  inactive := fun p hactive => Proc.eq_collecting_of_collects (hu.over_of_stuck hstuck p hactive)
  queue := List.eq_nil_iff_forall_not_mem.mpr fun p hp => by
    have hrequested := (hu.locks.queue p).mp hp
    obtain ⟨dh, hx⟩ := Proc.eq_collecting_of_collects
      (hu.over_of_stuck hstuck p (Proc.active_of_requested hrequested))
    rw [hx] at hrequested
    cases hrequested
  ended := fun hcrash r hmem hn => by
    rcases (h₀.lifeCycle_of_runs hr).row r hmem hn with ⟨hprogress | hfailed, -⟩ | ⟨hcompleted, -⟩
    · obtain ⟨p, d, hd, hid⟩ := attended_of_runs h₀ hr hcrash r hmem hn hprogress
      obtain ⟨dh, hx⟩ := Proc.eq_collecting_of_collects
        (hu.over_of_stuck hstuck p (Proc.active_of_pending hd))
      obtain rfl : dh = d := by simpa [hx, Proc.pending, Proc.origin] using hd
      exact .inr (.inr ⟨p, dh, hx, hid⟩)
    · exact .inr (.inl hfailed)
    · exact .inl hcompleted

/-- What comes after a state when no more requests come in. -/
structure ComesToRest (cfg : Settings) (n₀ : ℕ) (tr : List (Pid × Event)) (s : State) : Prop where
  /-- a run that goes on for ever ends in one of pages: in a state that stays, threads
  ask for page after page -/
  ends : ∀ (f : ℕ → State) (e : ℕ → Pid × Event), f 0 = s →
    (∀ n, Continues cfg (f n) (e n) (f (n + 1))) →
    ∃ N, ∀ n, N ≤ n → f n = f N ∧ ∃ p dh, e n = (p, .paged) ∧ (f N).procs p = .collecting dh
  /-- when nothing can go on but collections, everything else is over -/
  rest : ∀ tr' t, Run (Continues cfg) s tr' t → Stuck (Settles cfg) t → AtRest n₀ (tr ++ tr') t
  /-- from wherever they have come, the activities can be run to there without a failure,
  and without waiting for a host -/
  forward : ∀ tr' t, Run (Continues cfg) s tr' t → ∃ tr'' u, Run (Settles cfg) t tr'' u ∧
    (∀ e ∈ tr'', e.2.Forward) ∧ AtRest n₀ (tr ++ tr' ++ tr'') u

/-- **Every run comes to rest.** Whatever discoveries, deletes and sweeps a run has
begun and wherever they stand, once no more requests come in: a run goes on for ever
only where a collection pages for ever, with nothing else going on; when no statement
is left but those of collections, every other activity is over, nobody waits for a
lock, and unless a thread has died every discovery of the run that is still there is
completed or failed or being collected; and such a state can always be reached without
an exception or a crash. -/
theorem comesToRest_of_runs (h₀ : Initial s₀) (hr : Runs cfg s₀ tr s) :
    ComesToRest cfg s₀.historySeq tr s := by
  have hu := Underway.of_runs h₀ hr
  have hrun : ∀ {tr' t}, Run (Continues cfg) s tr' t → Underway (tr.map Prod.fst).toFinset t :=
    fun hr' => hr'.invariant (fun _ _ _ hu hst => hu.step hst) hu
  refine ⟨fun f e hf hstep => hu.exists_paged hf hstep, fun tr' t hr' hstuck => ?_,
    fun tr' t hr' => ?_⟩
  · exact atRest_of_stuck h₀ (hr.trans (runs_of_continues hr')) (hrun hr') hstuck
  · obtain ⟨tr'', u, hr'', hforward, hstuck⟩ := ((hrun hr').settles cfg).exists_stuck
      (fun _ _ _ hu hst => Underway.step hu hst.1) (fun _ hu => Underway.stuck_or_forward hu cfg)
      (hrun hr')
    have hcontinues := hr'.trans (hr''.mono fun _ _ _ hst => hst.1)
    refine ⟨tr'', u, hr'', hforward, ?_⟩
    rw [List.append_assoc]
    exact atRest_of_stuck h₀ (hr.trans (runs_of_continues hcontinues)) (hrun hcontinues) hstuck

/-- Two discoveries of which one waits for the other, and what comes after. -/
theorem comesToRest_sample : ∃ tr u,
    Runs ⟨3600, 500⟩ emptyState (overlapCollection ++ overlapInsertion) waitingState ∧
    waitingState.WaitsFor 1 0 ∧ Run (Settles ⟨3600, 500⟩) waitingState tr u ∧
    AtRest emptyState.historySeq (overlapCollection ++ overlapInsertion ++ [] ++ tr) u := by
  have h := overlap_waits ⟨3600, 500⟩
  obtain ⟨tr, u, hrun, -, hrest⟩ :=
    (comesToRest_of_runs emptyState_initial h.runs).forward [] waitingState .refl
  exact ⟨tr, u, h.runs, waitingState_waitsFor, hrun, hrest⟩

end AdcsConnector
