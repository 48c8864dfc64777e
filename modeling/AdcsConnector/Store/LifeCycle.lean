/-
The life cycle of a discovery: all or nothing, and no resurrection.

* `Step.status_eq`, `Inv.linksOf_eq`: the status and the links of a discovery
  change by the commits of its own thread and of its DELETE only;
* `LifeCycle`: the discoveries created in a run have no links while they are in
  progress or after they failed, and one link per collected certificate once
  they are completed; it is kept by every step (`LifeCycle.step`);
* `Gone`: a deleted discovery stays deleted (`Gone.step`);
* `lifeCycle_of_runs`: the two together, over every run.
-/
import AdcsConnector.Store.Safety

namespace AdcsConnector

variable {cfg : Settings} {s₀ s s' : State} {p q : Pid} {e : Event} {tr : List (Pid × Event)}

/-! ### The rows and the links of one discovery -/

/-- The discovery of an activity that has not completed it. -/
def Proc.pending : Proc → Option DiscoveryHistory
  | completed .. => none
  | x => x.origin

lemma Proc.origin_of_pending {x : Proc} {r : DiscoveryHistory} (h : x.pending = some r) :
    x.origin = some r := by
  cases x <;> first | exact h | exact absurd h (by simp [pending])

/-- The status of discovery `d` after an event. -/
def Event.statusOf (d : ℕ) (status : String) : Event → String
  | persisted d' _ _ => if d' = d then DiscoveryStatus.completed.value else status
  | failed d' _ _ => if d' = d then DiscoveryStatus.failed.value else status
  | _ => status

/-- The FAILED update and the completion are made by the thread of the
discovery. -/
lemma Event.By.pending {x : Proc} {d : ℕ} {status : String} (h : e.By x)
    (hne : e.statusOf d status ≠ status) : ∃ dh, x.pending = some dh ∧ dh.id = d := by
  cases e with
  | persisted d' ins links =>
      obtain ⟨dh, c, rfl, rfl⟩ := h
      exact ⟨dh, rfl, by_contra fun hd => hne (if_neg hd)⟩
  | failed d' uuid reason =>
      obtain ⟨dh, rfl, rfl, rfl⟩ := h
      exact ⟨dh, rfl, by_contra fun hd => hne (if_neg hd)⟩
  | _ => exact absurd rfl hne

/-- A row after a step is the row created, or a row of before with the status
that the event gives it. -/
lemma Step.status_eq (h : Step cfg s (p, e) s') (hinv : Inv s) {r' : DiscoveryHistory}
    (hr' : r' ∈ s'.store.discoveryHistory) :
    e = .created r' ∨ ∃ r ∈ s.store.discoveryHistory, r.id = r'.id ∧ r.uuid = r'.uuid ∧
      r'.status = e.statusOf r.id r.status := by
  have hby := h.by_self
  rw [h.store_eq] at hr'
  cases e with
  | created row =>
      rcases List.mem_append.mp hr' with hr' | hr'
      · exact .inr ⟨r', hr', rfl, rfl, rfl⟩
      · exact .inl (by rw [List.mem_singleton.mp hr'])
  | persisted d ins links =>
      obtain ⟨r, hr, rfl⟩ := List.mem_map.mp hr'
      refine .inr ⟨r, hr, (Store.completeRow_id d r).symm, (Store.completeRow_uuid d r).symm, ?_⟩
      simp only [Store.completeRow, Event.statusOf, eq_comm (a := d)]
      split <;> rfl
  | failed d uuid reason =>
      obtain ⟨r, hr, rfl⟩ := List.mem_map.mp hr'
      refine .inr ⟨r, hr, (Store.failRow_id uuid reason r).symm,
        (Store.failRow_uuid uuid reason r).symm, ?_⟩
      -- the update filters by uuid; the row of that uuid is the thread's own
      obtain ⟨dh, hx, rfl, rfl⟩ := hby
      have hiff := ((hinv.ok p).origin dh (by rw [hx]; rfl)).2.2 r hr
      simp only [Store.failRow, Event.statusOf, hiff, eq_comm (a := dh.id)]
      split <;> rfl
  | deleted d dropped => exact .inr ⟨r', List.mem_of_mem_filter hr', rfl, rfl, rfl⟩
  | _ => exact .inr ⟨r', hr', rfl, rfl, rfl⟩

/-- The links of a discovery change when it is completed or deleted only. -/
lemma Inv.linksOf_eq (hinv : Inv s) (h : Step cfg s (p, e) s') {d : ℕ}
    (hpersisted : ∀ ins links, e ≠ .persisted d ins links)
    (hdeleted : ∀ dropped, e ≠ .deleted d dropped) :
    s'.store.linksOf d = s.store.linksOf d := by
  have hby := h.by_self
  rw [h.store_eq]
  cases e with
  | persisted d' ins links =>
      obtain ⟨dh, c, hx, rfl⟩ := hby
      have hknows := (hinv.ok p).knows
      rw [hx] at hknows
      have hnone : links.filter (fun l => l.discoveryId = d) = [] := by
        refine List.filter_eq_nil_iff.mpr fun l hl => ?_
        obtain ⟨cert, -, hlink⟩ := Rows.exists_of_forall₂_mem_right hknows hl
        rw [hlink.discoveryId_eq, decide_eq_true_eq]
        exact fun heq => hpersisted ins links (by rw [heq])
      simp only [Event.commit, Store.linksOf, Store.persist, List.filter_append, hnone,
        List.append_nil]
  | deleted d' dropped =>
      have hne : d ≠ d' := fun heq => hdeleted dropped (by rw [heq])
      simp only [Event.commit, Store.linksOf, Store.deleteHistory, List.filter_filter]
      refine List.filter_congr fun l _ => ?_
      by_cases hl : l.discoveryId = d <;> simp [hl, hne]
  | _ => rfl

/-- A completion adds its links to those of the discovery. -/
lemma Inv.linksOf_persisted (hinv : Inv s) {d : ℕ} {ins : List Certificate}
    {links : List DiscoveryCertificate} (h : Step cfg s (p, .persisted d ins links) s') :
    s'.store.linksOf d = s.store.linksOf d ++ links := by
  obtain ⟨dh, c, hx, rfl⟩ := h.by_self
  have hknows := (hinv.ok p).knows
  rw [hx] at hknows
  rw [h.store_eq]
  have hall : links.filter (fun l => l.discoveryId = dh.id) = links := by
    refine List.filter_eq_self.mpr fun l hl => ?_
    obtain ⟨cert, -, hlink⟩ := Rows.exists_of_forall₂_mem_right hknows hl
    simp [hlink.discoveryId_eq]
  simp only [Event.commit, Store.linksOf, Store.persist, List.filter_append, hall]

/-- A deleted discovery has no links. -/
lemma Inv.linksOf_deleted (hinv : Inv s) {d : ℕ} {dropped : List ℕ}
    (h : Step cfg s (p, .deleted d dropped) s') : s'.store.linksOf d = [] := by
  obtain ⟨dh, hx, rfl⟩ := h.by_self
  rw [h.store_eq]
  exact List.filter_eq_nil_iff.mpr fun l hl => by simpa using hinv.deleteOk hx l hl

/-- A certificate with a link stays. -/
lemma Inv.linked_stays (hinv : Inv s) (h : Step cfg s (p, e) s') {l : DiscoveryCertificate}
    (hl : l ∈ s.store.discoveryCertificate) {k : Certificate} (hk : k ∈ s.store.certificate)
    (hkl : k.id = l.certificateId) : k ∈ s'.store.certificate := by
  have hby := h.by_self
  rw [h.store_eq]
  cases e with
  | batch ids ret =>
      obtain ⟨bound, n, hx⟩ := hby
      exact List.mem_filter.mpr ⟨hk, by simpa [hkl] using hinv.removeOk hx l hl⟩
  | _ => exact Event.certificate_subset (by simp) hk

/-! ### All or nothing -/

/-- An activity keeps a pending discovery through steps that change no status,
or has just created it. -/
lemma Step.pending_cases (h : Step cfg s (p, e) s') (hinv : Inv s) {r : DiscoveryHistory}
    (hr : (s'.procs p).pending = some r) :
    (∃ r₀, (s.procs p).pending = some r₀ ∧ r₀.id = r.id ∧
      ∀ d status, e.statusOf d status = status) ∨
      (r.id = s.historySeq ∧ e = .statement) := by
  cases h with
  | createSave uuid hx hfresh =>
      obtain rfl := Option.some.inj
        ((congrArg Proc.pending (State.set_procs_self ..)).symm.trans hr)
      exact .inr ⟨rfl, rfl⟩
  | @threadGet p row dh hx hdh huuid =>
      obtain rfl : dh = r := by simpa [Proc.pending, Proc.origin] using hr
      have horigin := (hinv.ok _).origin row (by rw [hx]; rfl)
      exact .inl ⟨row, by rw [hx]; rfl, ((horigin.2.2 dh hdh).mp huuid).symm, fun _ _ => rfl⟩
  | @raise p dh reason hx =>
      obtain rfl : dh = r := by simpa [Proc.pending, Proc.origin] using hr
      refine .inl ⟨dh, ?_, rfl, fun _ _ => rfl⟩
      cases hp : s.procs p <;> rw [hp] at hx <;> simp_all [Proc.tried, Proc.pending, Proc.origin]
  | _ => simp_all [Proc.pending, Proc.origin, Event.statusOf]

/-- A completed thread takes no more steps. -/
lemma Step.not_completed (h : Step cfg s (p, e) s') {dh : DiscoveryHistory} {c : Collected} :
    s.procs p ≠ .completed dh c := by
  intro hx
  cases h <;> simp_all [Proc.tried, Proc.active]

/-- The thread whose persistence commits is completed. -/
lemma Step.completed_of_persisted {d : ℕ} {ins : List Certificate}
    {links : List DiscoveryCertificate} (h : Step cfg s (p, .persisted d ins links) s') :
    ∃ dh c, s.procs p = .saved dh c ins links ∧ s'.procs p = .completed dh c ∧ dh.id = d := by
  cases h with
  | @persistCommit p dh c ins links hx hfk => exact ⟨dh, c, hx, State.set_procs_self .., rfl⟩

/-- A discovery of the run, in a committed state: nothing, or everything. -/
def State.AllOrNothing (s : State) (r : DiscoveryHistory) : Prop :=
  (r.status = DiscoveryStatus.inProgress.value ∨ r.status = DiscoveryStatus.failed.value) ∧
      s.store.linksOf r.id = [] ∨
    r.status = DiscoveryStatus.completed.value ∧ ∃ p dh c, s.procs p = .completed dh c ∧
      dh.id = r.id ∧ List.Forall₂ (LinkTo s.store.certificate r.id c.cas) c.totalCertificates
        (s.store.linksOf r.id)

/-- The invariant of the discoveries created since the sequence of their table
stood at `n₀`. -/
structure LifeCycle (n₀ : ℕ) (s : State) : Prop where
  start : n₀ ≤ s.historySeq
  row : ∀ r ∈ s.store.discoveryHistory, n₀ ≤ r.id → s.AllOrNothing r
  pending : ∀ p d, (s.procs p).pending = some d → n₀ ≤ d.id ∧
    ∀ r ∈ s.store.discoveryHistory, r.id = d.id → r.status = DiscoveryStatus.inProgress.value
  created : ∀ p r, (s.procs p).created = some r → r.status = DiscoveryStatus.inProgress.value

/-- A pending discovery has no links. -/
lemma LifeCycle.linksOf_pending {n₀ : ℕ} (hl : LifeCycle n₀ s) (hinv : Inv s)
    {d : DiscoveryHistory} (hd : (s.procs p).pending = some d) : s.store.linksOf d.id = [] := by
  obtain ⟨hn, hstatus⟩ := hl.pending p d hd
  refine List.filter_eq_nil_iff.mpr fun l hlink => ?_
  rw [decide_eq_true_eq]
  intro heq
  obtain ⟨r, hr, hid⟩ := hinv.consistent.historyFk l hlink
  have hrd : r.id = d.id := hid.trans heq
  rcases hl.row r hr (hrd ▸ hn) with ⟨-, hnil⟩ | ⟨hcompleted, -⟩
  · have hmem : l ∈ s.store.linksOf r.id := List.mem_filter.mpr ⟨hlink, by simp [hid]⟩
    simp [hnil] at hmem
  · have heq := DiscoveryStatus.value_injective ((hstatus r hr hrd).symm.trans hcompleted)
    cases heq

/-- A discovery that the step neither completes, fails nor deletes. -/
lemma State.AllOrNothing.frame {r r' : DiscoveryHistory} (ha : s.AllOrNothing r) (hinv : Inv s)
    (h : Step cfg s (p, e) s') (hid : r.id = r'.id) (hstatus : r'.status = r.status)
    (hlinks : s'.store.linksOf r.id = s.store.linksOf r.id) : s'.AllOrNothing r' := by
  rw [State.AllOrNothing, hstatus, ← hid, hlinks]
  refine ha.imp id fun ⟨hcompleted, q, dh, c, hx, hdh, hall⟩ => ⟨hcompleted, q, dh, c, ?_, hdh, ?_⟩
  · rw [h.procs_of_ne fun heq => h.not_completed (heq ▸ hx), hx]
  · refine Rows.forall₂_imp_right hall fun cert l hl hlink => ?_
    obtain ⟨k, hk, hkid, hfp⟩ := hlink.certificate
    exact ⟨hlink.discoveryId_eq,
      ⟨k, hinv.linked_stays h (List.mem_of_mem_filter hl) hk hkid, hkid, hfp⟩, hlink.metadata_eq⟩

/-- The rows after a step. -/
lemma LifeCycle.row_step {n₀ : ℕ} (hl : LifeCycle n₀ s) (hinv : Inv s) (h : Step cfg s (p, e) s')
    {r' : DiscoveryHistory} (hr' : r' ∈ s'.store.discoveryHistory) (hn : n₀ ≤ r'.id) :
    s'.AllOrNothing r' := by
  rcases h.status_eq hinv hr' with rfl | ⟨r, hr, hid, -, hstatus⟩
  · have hx : s.procs p = .createSaved r' := h.by_self
    refine .inl ⟨.inl (hl.created p r' (by rw [hx]; rfl)), ?_⟩
    rw [hinv.linksOf_eq h (by simp) (by simp)]
    exact hl.linksOf_pending hinv (p := p) (by rw [hx]; rfl)
  · have ha := hl.row r hr (hid ▸ hn)
    cases e with
    | persisted d ins links =>
        by_cases hd : d = r.id
        · -- the completion: the links of the collection and nothing before them
          subst hd
          obtain ⟨dh, c, hx, hx', hdh⟩ := h.completed_of_persisted
          have hknows := (hinv.ok p).knows
          rw [hx] at hknows
          have hnil := hl.linksOf_pending hinv (p := p) (d := dh) (by rw [hx]; rfl)
          refine .inr ⟨hstatus.trans (if_pos rfl), p, dh, c, hx', hdh.trans hid, ?_⟩
          rw [← hid, hinv.linksOf_persisted h, ← hdh, hnil, h.store_eq]
          exact hknows
        · refine ha.frame hinv h hid (hstatus.trans (if_neg hd)) (hinv.linksOf_eq h ?_ (by simp))
          exact fun _ _ heq => hd (by injection heq)
    | failed d uuid reason =>
        by_cases hd : d = r.id
        · subst hd
          obtain ⟨dh, hx, hdh, -⟩ := h.by_self
          refine .inl ⟨.inr (hstatus.trans (if_pos rfl)), ?_⟩
          rw [← hid, hinv.linksOf_eq h (by simp) (by simp), ← hdh]
          exact hl.linksOf_pending hinv (p := p) (by rw [hx]; rfl)
        · exact ha.frame hinv h hid (hstatus.trans (if_neg hd))
            (hinv.linksOf_eq h (by simp) (by simp))
    | deleted d dropped =>
        refine ha.frame hinv h hid hstatus (hinv.linksOf_eq h (by simp) fun _ heq => ?_)
        -- the row of a deleted discovery is gone
        rw [h.store_eq] at hr'
        injection heq with heq
        simpa [heq, hid] using (List.mem_filter.mp hr').2
    | _ => exact ha.frame hinv h hid hstatus (hinv.linksOf_eq h (by simp) (by simp))

/-- **Every step keeps the life cycle.** -/
theorem LifeCycle.step {n₀ : ℕ} (hl : LifeCycle n₀ s) (hinv : Inv s) (h : Step cfg s (p, e) s') :
    LifeCycle n₀ s' where
  start := hl.start.trans h.seq_le.2.1
  row := fun r hr hn => hl.row_step hinv h hr hn
  pending := fun q d hd => by
    by_cases hq : q = p
    · subst hq
      rcases h.pending_cases hinv hd with ⟨d₀, hd₀, hid, hsilent⟩ | ⟨hid, rfl⟩
      · obtain ⟨hn, hstatus⟩ := hl.pending q d₀ hd₀
        refine ⟨hid ▸ hn, fun r' hr' heq => ?_⟩
        rcases h.status_eq hinv hr' with rfl | ⟨r, hr, hrid, -, hr'status⟩
        · have hx : s.procs q = .createSaved r' := h.by_self
          exact hl.created q r' (by rw [hx]; rfl)
        · rw [hr'status, hsilent]
          exact hstatus r hr (by omega)
      · refine ⟨hid ▸ hl.start, fun r' hr' heq => ?_⟩
        rw [h.store_of_statement] at hr'
        have hlt := (hinv.history_lt r' hr').1
        omega
    · rw [h.procs_of_ne hq] at hd
      obtain ⟨hn, hstatus⟩ := hl.pending q d hd
      have hcomp := hinv.compatible p q (Ne.symm hq)
      refine ⟨hn, fun r' hr' heq => ?_⟩
      rcases h.status_eq hinv hr' with rfl | ⟨r, hr, hrid, -, hr'status⟩
      · have hx : s.procs p = .createSaved r' := h.by_self
        exact hl.created p r' (by rw [hx]; rfl)
      · have hrd : r.id = d.id := hrid.trans heq
        rw [hr'status, ← hstatus r hr hrd]
        -- a commit that changes the status is made by the thread of the discovery
        by_contra hne
        obtain ⟨dh, hpending, hdh⟩ := h.by_self.pending hne
        exact (hcomp.origin dh d (Proc.origin_of_pending hpending)
          (Proc.origin_of_pending hd)).1 (hdh.trans hrd)
  created := fun q r hr => by
    by_cases hq : q = p
    · subst hq
      cases h with
      | createSave uuid hx hfresh =>
          obtain rfl := Option.some.inj
            ((congrArg Proc.created (State.set_procs_self ..)).symm.trans hr)
          rfl
      | _ => simp_all [Proc.created]
    · rw [h.procs_of_ne hq] at hr
      exact hl.created q r hr

/-- The life cycle of the discoveries to come holds at the start. -/
lemma Initial.lifeCycle (h : Initial s) : LifeCycle s.historySeq s where
  start := le_rfl
  row := fun r hr hn => absurd (h.history_lt r hr).1 (by omega)
  pending := fun p d hd => by simp [h.procs p, Proc.pending, Proc.origin] at hd
  created := fun p r hr => by simp [h.procs p, Proc.created] at hr

lemma Initial.lifeCycle_of_runs (h₀ : Initial s₀) (hr : Runs cfg s₀ tr s) :
    LifeCycle s₀.historySeq s :=
  (hr.invariant (I := fun s => Inv s ∧ LifeCycle s₀.historySeq s)
    (fun _ _ _ hi hst => ⟨hi.1.step hst, hi.2.step hi.1 hst⟩) ⟨h₀.inv, h₀.lifeCycle⟩).2

/-! ### The status along a run -/

/-- The changes of status there are: from in progress to completed or failed,
once. -/
def StatusChange (a b : String) : Prop :=
  a = b ∨ a = DiscoveryStatus.inProgress.value ∧
    (b = DiscoveryStatus.completed.value ∨ b = DiscoveryStatus.failed.value)

lemma StatusChange.trans {a b c : String} (hab : StatusChange a b) (hbc : StatusChange b c) :
    StatusChange a c := by
  rcases hab with rfl | ⟨rfl, hb⟩
  · exact hbc
  · rcases hbc with rfl | ⟨rfl, -⟩
    · exact .inr ⟨rfl, hb⟩
    · exact absurd hb (by decide)

lemma Event.statusOf_cases (e : Event) (d : ℕ) (status : String) :
    e.statusOf d status = status ∨ e.statusOf d status = DiscoveryStatus.completed.value ∨
      e.statusOf d status = DiscoveryStatus.failed.value := by
  cases e with
  | persisted d' ins links => by_cases h : d' = d <;> simp [statusOf, h]
  | failed d' uuid reason => by_cases h : d' = d <;> simp [statusOf, h]
  | _ => exact .inl rfl

/-- No row will be created with the id `d` any more. -/
def State.Spent (s : State) (d : ℕ) : Prop :=
  d < s.historySeq ∧ ∀ q r, (s.procs q).created = some r → r.id ≠ d

lemma State.Spent.step {d : ℕ} (hs : s.Spent d) (h : Step cfg s (p, e) s') : s'.Spent d := by
  refine ⟨hs.1.trans_le h.seq_le.2.1, fun q r hr => ?_⟩
  by_cases hq : q = p
  · subst hq
    have hid := (h.created_cases hr).2
    have hlt := hs.1
    omega
  · rw [h.procs_of_ne hq] at hr
    exact hs.2 q r hr

lemma Inv.spent (hinv : Inv s) {r : DiscoveryHistory} (hr : r ∈ s.store.discoveryHistory) :
    s.Spent r.id :=
  ⟨(hinv.history_lt r hr).1, fun q r' hr' heq => (hinv.ok q).created r' hr' r hr heq.symm⟩

/-- Where a row of discovery `d` in a later state comes from. -/
lemma LifeCycle.status_step {n₀ d : ℕ} (hl : LifeCycle n₀ s) (hinv : Inv s) (hs : s.Spent d)
    (h : Step cfg s (p, e) s') : ∀ r' ∈ s'.store.discoveryHistory, r'.id = d →
      ∃ r ∈ s.store.discoveryHistory, r.id = d ∧ StatusChange r.status r'.status := by
  intro r' hr' hd
  rcases h.status_eq hinv hr' with rfl | ⟨r, hr, hid, -, hstatus⟩
  · have hx : s.procs p = .createSaved r' := h.by_self
    exact absurd hd (hs.2 p r' (by rw [hx]; rfl))
  · refine ⟨r, hr, hid.trans hd, ?_⟩
    by_cases hsame : e.statusOf r.id r.status = r.status
    · exact .inl (hsame.symm.trans hstatus.symm)
    · obtain ⟨dh, hpending, hdh⟩ := h.by_self.pending hsame
      refine .inr ⟨(hl.pending p dh hpending).2 r hr hdh.symm, ?_⟩
      rw [hstatus]
      exact (e.statusOf_cases r.id r.status).resolve_left hsame

/-- Along a run, the status of a discovery changes at most once. -/
lemma LifeCycle.status_run {n₀ d : ℕ} (hl : LifeCycle n₀ s) (hinv : Inv s) (hs : s.Spent d)
    (hr : Runs cfg s tr s') : ∀ r' ∈ s'.store.discoveryHistory, r'.id = d →
      ∃ r ∈ s.store.discoveryHistory, r.id = d ∧ StatusChange r.status r'.status := by
  refine hr.rel (I := fun s => Inv s ∧ LifeCycle n₀ s ∧ s.Spent d)
    (R := fun s s' => ∀ r' ∈ s'.store.discoveryHistory, r'.id = d →
      ∃ r ∈ s.store.discoveryHistory, r.id = d ∧ StatusChange r.status r'.status)
    (fun _ _ _ hi hst => ⟨hi.1.step hst, hi.2.1.step hi.1 hst, hi.2.2.step hst⟩)
    (fun a r hr hd => ⟨r, hr, hd, .inl rfl⟩) (fun a b c hab hbc r hr hd => ?_)
    (fun _ _ _ hi hst => hi.2.1.status_step hi.1 hi.2.2 hst) ⟨hinv, hl, hs⟩
  obtain ⟨r₁, hr₁, hd₁, h₁⟩ := hbc r hr hd
  obtain ⟨r₂, hr₂, hd₂, h₂⟩ := hab r₁ hr₁ hd₁
  exact ⟨r₂, hr₂, hd₂, h₂.trans h₁⟩

/-! ### A deleted discovery stays deleted -/

/-- Discovery `d` is gone: no row, no links, and no row to come. -/
structure State.Gone (s : State) (d : ℕ) : Prop where
  spent : s.Spent d
  row : ∀ r ∈ s.store.discoveryHistory, r.id ≠ d
  links : s.store.linksOf d = []

lemma Inv.gone_of_deleted (hinv : Inv s) {d : ℕ} {dropped : List ℕ}
    (h : Step cfg s (p, .deleted d dropped) s') : s'.Gone d := by
  obtain ⟨dh, hx, rfl⟩ := h.by_self
  obtain ⟨r, hr, hid⟩ := (hinv.ok p).row dh.id (by rw [hx]; rfl)
  refine ⟨(hid ▸ hinv.spent hr).step h, fun r' hr' => ?_, hinv.linksOf_deleted h⟩
  rw [h.store_eq] at hr'
  simpa using (List.mem_filter.mp hr').2

lemma State.Gone.step {d : ℕ} (hg : s.Gone d) (hinv : Inv s) (h : Step cfg s (p, e) s') :
    s'.Gone d where
  spent := hg.spent.step h
  row := fun r' hr' heq => by
    rcases h.status_eq hinv hr' with rfl | ⟨r, hr, hid, -⟩
    · have hx : s.procs p = .createSaved r' := h.by_self
      exact hg.spent.2 p r' (by rw [hx]; rfl) heq
    · exact hg.row r hr (hid.trans heq)
  links := by
    rw [hinv.linksOf_eq h ?_ ?_, hg.links]
    · -- a completion holds the row of its discovery
      rintro ins links rfl
      obtain ⟨dh, c, hx, rfl⟩ := h.by_self
      obtain ⟨r, hr, hid⟩ := (hinv.ok p).row dh.id (by rw [hx]; rfl)
      exact hg.row r hr hid
    · rintro dropped rfl
      obtain ⟨dh, hx, rfl⟩ := h.by_self
      obtain ⟨r, hr, hid⟩ := (hinv.ok p).row dh.id (by rw [hx]; rfl)
      exact hg.row r hr hid

lemma State.Gone.run {d : ℕ} (hg : s.Gone d) (hinv : Inv s) (hr : Runs cfg s tr s') :
    s'.Gone d :=
  (hr.invariant (I := fun s => Inv s ∧ s.Gone d)
    (fun _ _ _ hi hst => ⟨hi.1.step hst, hi.2.step hi.1 hst⟩) ⟨hinv, hg⟩).2

/-- The id and the uuid of a discovery that has been created belong together. -/
structure State.Registered (s : State) (row : DiscoveryHistory) : Prop where
  id : row.id < s.historySeq
  uuid : row.uuid ∈ s.uuids
  history : ∀ r ∈ s.store.discoveryHistory, r.uuid = row.uuid ↔ r.id = row.id
  origin : ∀ q r, (s.procs q).origin = some r → (r.uuid = row.uuid ↔ r.id = row.id)

/-- A discovery is registered once an activity has it at hand. -/
lemma Inv.registered (hinv : Inv s) {row : DiscoveryHistory} (h : (s.procs p).origin = some row) :
    s.Registered row where
  id := ((hinv.ok p).origin row h).1
  uuid := ((hinv.ok p).origin row h).2.1
  history := ((hinv.ok p).origin row h).2.2
  origin := fun q r hr => by
    by_cases hq : q = p
    · subst hq
      rw [Option.some.inj (hr.symm.trans h)]
      simp
    · obtain ⟨hid, huuid⟩ := (hinv.compatible q p hq).origin r row hr h
      simp [hid, huuid]

lemma State.Registered.step {row : DiscoveryHistory} (hreg : s.Registered row) (hinv : Inv s)
    (h : Step cfg s (p, e) s') : s'.Registered row where
  id := hreg.id.trans_le h.seq_le.2.1
  uuid := h.seq_le.2.2.2 hreg.uuid
  history := fun r' hr' => by
    rcases h.status_eq hinv hr' with rfl | ⟨r, hr, hid, huuid, -⟩
    · have hx : s.procs p = .createSaved r' := h.by_self
      exact hreg.origin p r' (by rw [hx]; rfl)
    · rw [← hid, ← huuid]
      exact hreg.history r hr
  origin := fun q r hr => by
    by_cases hq : q = p
    · subst hq
      rcases h.origin_cases hinv hr with ⟨r₀, hr₀, hid, huuid⟩ | ⟨hid, hfresh, -⟩
      · rw [← hid, ← huuid]
        exact hreg.origin q r₀ hr₀
      · have hlt := hreg.id
        exact ⟨fun heq => absurd (heq ▸ hreg.uuid) hfresh, fun heq => by omega⟩
    · rw [h.procs_of_ne hq] at hr
      exact hreg.origin q r hr

/-! ### The life cycle over every run -/

/-- The ids created in a run are new. -/
lemma created_le (h₀ : Initial s₀) (hr : Runs cfg s₀ tr s) {row : DiscoveryHistory}
    (hrow : (q, Event.created row) ∈ tr) : s₀.historySeq ≤ row.id := by
  obtain ⟨tr₁, tr₂, m, m', rfl, hr₁, hst, -⟩ := hr.exists_step hrow
  have hx : m.procs q = .createSaved row := hst.by_self
  exact ((h₀.lifeCycle_of_runs hr₁).pending q row (by rw [hx]; rfl)).1

/-- A created discovery is registered from then on. -/
lemma registered_of_runs (h₀ : Initial s₀) (hr : Runs cfg s₀ tr s) {row : DiscoveryHistory}
    (hrow : (q, Event.created row) ∈ tr) : s.Registered row := by
  obtain ⟨tr₁, tr₂, m, m', rfl, hr₁, hst, hr₂⟩ := hr.exists_step hrow
  have hm := h₀.inv.run hr₁
  have hx : m.procs q = .createSaved row := hst.by_self
  exact (hr₂.invariant (I := fun s => Inv s ∧ s.Registered row)
    (fun _ _ _ hi hst => ⟨hi.1.step hst, hi.2.step hi.1 hst⟩)
    ⟨hm.step hst, (hm.registered (by rw [hx]; rfl)).step hm hst⟩).2

/-- A discovery that is deleted in a run is gone at its end. -/
lemma gone_of_runs (h₀ : Initial s₀) (hr : Runs cfg s₀ tr s) {d : ℕ} {dropped : List ℕ}
    (hdel : (p, Event.deleted d dropped) ∈ tr) : s.Gone d := by
  obtain ⟨tr₁, tr₂, m, m', rfl, hr₁, hst, hr₂⟩ := hr.exists_step hdel
  have hm := h₀.inv.run hr₁
  exact (hm.gone_of_deleted hst).run (hm.step hst) hr₂

/-- The contents whose fingerprints a state compares: those stored, and those
collected by completed discoveries. -/
def State.contents (s : State) : Set String :=
  {content | (∃ k ∈ s.store.certificate, k.base64content = content) ∨
    ∃ p dh c, s.procs p = .completed dh c ∧
      ∃ cert ∈ c.totalCertificates, cert.certificate = content}

/-- The life of discovery `row`, seen from a state after the trace `tr`. -/
structure DiscoveryLife (cfg : Settings) (tr : List (Pid × Event)) (s : State)
    (row : DiscoveryHistory) : Prop where
  nothing : ∀ r ∈ s.store.discoveryHistory, r.id = row.id →
    r.status = DiscoveryStatus.inProgress.value ∨ r.status = DiscoveryStatus.failed.value →
    s.store.linksOf row.id = []
  everything : ∀ r ∈ s.store.discoveryHistory, r.id = row.id →
    r.status = DiscoveryStatus.completed.value → s.contents.InjOn certificateFingerprint →
    ∃ p dh c, s.procs p = .completed dh c ∧ dh.id = row.id ∧
      List.Forall₂ (fun (cert : ParseResult) (l : DiscoveryCertificate) =>
        ∃ k ∈ s.store.certificate, k.id = l.certificateId ∧ k.base64content = cert.certificate)
        c.totalCertificates (s.store.linksOf row.id)
  status : ∀ r ∈ s.store.discoveryHistory, r.id = row.id →
    r.status = DiscoveryStatus.inProgress.value ∨ r.status = DiscoveryStatus.failed.value ∨
      r.status = DiscoveryStatus.completed.value
  change : ∀ tr' s', Runs cfg s tr' s' → ∀ r ∈ s.store.discoveryHistory,
    ∀ r' ∈ s'.store.discoveryHistory, r.id = row.id → r'.id = row.id →
    StatusChange r.status r'.status
  deleted : ∀ p dropped, (p, Event.deleted row.id dropped) ∈ tr →
    (∀ r ∈ s.store.discoveryHistory, r.id ≠ row.id ∧ r.uuid ≠ row.uuid) ∧
      s.store.linksOf row.id = []

/-- A completed discovery has the contents collected, when no two contents at
hand share a fingerprint. -/
lemma Inv.contents_of_linkTo (hinv : Inv s) (hinj : s.contents.InjOn certificateFingerprint)
    {dh : DiscoveryHistory} {c : Collected} (hx : s.procs p = .completed dh c) {d : ℕ}
    {links : List DiscoveryCertificate}
    (h : List.Forall₂ (LinkTo s.store.certificate d c.cas) c.totalCertificates links) :
    List.Forall₂ (fun (cert : ParseResult) (l : DiscoveryCertificate) =>
      ∃ k ∈ s.store.certificate, k.id = l.certificateId ∧ k.base64content = cert.certificate)
      c.totalCertificates links := by
  refine List.forall₂_iff_zip.mpr ⟨h.length_eq, fun {cert l} hmem => ?_⟩
  obtain ⟨k, hk, hid, hfp⟩ := (List.forall₂_iff_zip.mp h).2 hmem |>.certificate
  refine ⟨k, hk, hid, hinj (.inl ⟨k, hk, rfl⟩) (.inr ⟨p, dh, c, hx, cert, ?_, rfl⟩) ?_⟩
  · exact (List.of_mem_zip hmem).1
  · rw [← hinv.consistent.fingerprint_eq k hk, hfp]

/-- **A discovery is all or nothing, and never comes back.** For every
discovery created in a run and every state the run reaches: no links while it
is in progress or failed, one link per collected certificate when it is
completed, one change of status at most, and nothing after its DELETE. -/
theorem discoveryLife_of_runs (h₀ : Initial s₀) (hrun : Runs cfg s₀ tr s) {row : DiscoveryHistory}
    (hrow : (q, Event.created row) ∈ tr) : DiscoveryLife cfg tr s row := by
  have hinv := h₀.inv.run hrun
  have hlife := h₀.lifeCycle_of_runs hrun
  have hn := created_le h₀ hrun hrow
  refine ⟨fun r hr hid hstatus => ?_, fun r hr hid hstatus hinj => ?_, fun r hr hid => ?_,
    fun tr' s' hrun' r hr r' hr' hid hid' => ?_, fun p dropped hdel => ?_⟩
  · rcases hlife.row r hr (hid ▸ hn) with ⟨-, hnil⟩ | ⟨hcompleted, -⟩
    · exact hid ▸ hnil
    · rw [hcompleted] at hstatus
      exact absurd hstatus (by decide)
  · rcases hlife.row r hr (hid ▸ hn) with ⟨hother, -⟩ | ⟨-, p, dh, c, hp, hdh, hall⟩
    · rw [hstatus] at hother
      exact absurd hother (by decide)
    · rw [hid] at hall
      exact ⟨p, dh, c, hp, hdh.trans hid, hinv.contents_of_linkTo hinj hp hall⟩
  · rcases hlife.row r hr (hid ▸ hn) with ⟨hother, -⟩ | ⟨hcompleted, -⟩
    · exact hother.elim .inl (.inr ∘ .inl)
    · exact .inr (.inr hcompleted)
  · obtain ⟨r₁, hr₁, hid₁, hchange⟩ :=
      hlife.status_run hinv (hid ▸ hinv.spent hr) hrun' r' hr' hid'
    rwa [Rows.eq_of_key_eq hinv.consistent.historyId hr hr₁ (hid.trans hid₁.symm)]
  · have hgone := gone_of_runs h₀ hrun hdel
    have hreg := registered_of_runs h₀ hrun hrow
    exact ⟨fun r hr => ⟨hgone.row r hr, fun huuid => hgone.row r hr
      ((hreg.history r hr).mp huuid)⟩, hgone.links⟩

/-- A discovery that is deleted, one that shares its certificate with it and one that
fails. -/
theorem discoveryLife_sample : Runs ⟨3600, 500⟩ emptyState overlap overlapState ∧
    DiscoveryLife ⟨3600, 500⟩ overlap overlapState sampleRow ∧
    DiscoveryLife ⟨3600, 500⟩ overlap overlapState secondRow ∧
    DiscoveryLife ⟨3600, 500⟩ overlap overlapState failedRow := by
  have h := overlap_run.runs
  refine ⟨h, ?_, ?_, ?_⟩
  · exact discoveryLife_of_runs (q := 0) emptyState_initial h
      (by simp [overlap, overlapCollection])
  · exact discoveryLife_of_runs (q := 1) emptyState_initial h
      (by simp [overlap, overlapCollection])
  · exact discoveryLife_of_runs (q := 4) emptyState_initial h (by simp [overlap, overlapRemoval])

end AdcsConnector
