/-
A deleted authority instance and the updates that bring it back.

* `State.Gone`: a uuid without a row, and without one to come; a DELETE leaves
  such a uuid (`Inv.gone_of_deleted`), and every step keeps it but the commit of
  a row inserted by an update (`State.Gone.step`);
* `Overtaken`: an update commits though a DELETE of its row has committed since it
  read the row;
* `Accounted`: what the updates have read, and what has become of it;
* `staysDeleted_iff`: along a run, what is deleted stays deleted exactly when no
  update is overtaken.
-/
import AdcsConnector.Authority.Invariant

namespace AdcsConnector

namespace Authority

variable {cols : Columns} {s s' s₀ : State} {p q : Pid} {e : Event} {tr : List (Pid × Event)}

/-- A DELETE of a uuid has committed in the trace. -/
def Deletes (uuid : UUID) (tr : List (Pid × Event)) : Prop :=
  ∃ p a, a.uuid = uuid ∧ ((p, Event.deleted a) ∈ tr ∨ (p, Event.deletedNothing a) ∈ tr)

/-! ### What is gone -/

/-- A uuid that was drawn and has no row; nor is there a create that has it. -/
structure State.Gone (s : State) (uuid : UUID) : Prop where
  row : ∀ r ∈ s.rows, r.uuid ≠ uuid
  creating : ∀ p a, (s.procs p).creating = some a → a.uuid ≠ uuid
  drawn : uuid ∈ s.uuids

/-- A DELETE that has matched no row still finds none when it commits. -/
def State.Absent (s : State) : Prop :=
  ∀ p a, s.procs p = .deleteMissed a → ∀ r ∈ s.rows, r.uuid ≠ a.uuid

/-- Without the commits of inserted updates, a row that appears is the one of a
create. -/
lemma Inv.row_cases_of_ne (hinv : Inv s) (h : Step cols s (p, e) s')
    (hne : ∀ row, e ≠ .reinserted row) {r : AuthorityInstance} (hr : r ∈ s'.rows) :
    (∃ r₀ ∈ s.rows, SameKey r r₀) ∨ (s.procs p).creating = some r := by
  refine (hinv.row_cases h hr).imp_right fun ⟨_, hcommit⟩ => ?_
  rcases hcommit with rfl | rfl
  · rw [show s.procs p = .inserted r from h.by_self]
    rfl
  · exact absurd rfl (hne r)

lemma State.Gone.step {uuid : UUID} (hg : s.Gone uuid) (hinv : Inv s) (h : Step cols s (p, e) s')
    (hne : ∀ row, e ≠ .reinserted row) : s'.Gone uuid where
  row r hr := by
    rcases hinv.row_cases_of_ne h hne hr with ⟨r₀, hr₀, hkey⟩ | hcreating
    · rw [hkey.uuid]
      exact hg.row r₀ hr₀
    · exact hg.creating p r hcreating
  creating q a ha := by
    by_cases hqp : q = p
    · subst hqp
      rcases h.creating_cases hinv.rowsId ha with ⟨a₀, ha₀, huuid⟩ | hnew
      · rw [← huuid]
        exact hg.creating q a₀ ha₀
      · exact fun heq => hnew (heq ▸ hg.drawn)
    · rw [h.procs_of_ne hqp] at ha
      exact hg.creating q a ha
  drawn := h.uuids_subset hg.drawn

lemma State.Absent.step (ha : s.Absent) (hinv : Inv s) (h : Step cols s (p, e) s')
    (hne : ∀ row, e ≠ .reinserted row) : s'.Absent := by
  intro q a hq r hr
  by_cases hqp : q = p
  · subst hqp
    cases h with
    | deleteMiss h hrow =>
        rw [State.set_procs_self] at hq
        cases hq
        exact fun heq => hrow r hr ((hinv.agree r a (.inl hr) (.inr ⟨q, by rw [h]; rfl⟩)).key heq).1
    | _ => simp at hq
  · rw [h.procs_of_ne hqp] at hq
    have hobject : (s.procs q).object = some a := by
      rw [hq]
      rfl
    rcases hinv.row_cases_of_ne h hne hr with ⟨r₀, hr₀, hkey⟩ | hcreating
    · rw [hkey.uuid]
      exact ha q a hq r₀ hr₀
    · exact ((hinv.fresh p r hcreating).2 q a hqp hobject).symm

/-- A uuid is gone once a DELETE of it has committed. -/
lemma Inv.gone_of_deleted (hinv : Inv s) (habsent : s.Absent) {a : AuthorityInstance}
    (he : e = .deleted a ∨ e = .deletedNothing a) (h : Step cols s (p, e) s') : s'.Gone a.uuid := by
  have hobject : (s.procs p).object = some a := by
    rcases he with rfl | rfl
    · rw [show s.procs p = .deleted a from h.by_self]
      rfl
    · rw [show s.procs p = .deleteMissed a from h.by_self]
      rfl
  refine ⟨fun r hr heq => ?_, fun q b hb => ?_, h.uuids_subset (hinv.bound a (.inr ⟨p, hobject⟩)).1⟩
  · rw [h.rows_eq] at hr
    rcases he with rfl | rfl
    · obtain ⟨hr, hid⟩ := List.mem_filter.mp hr
      exact of_decide_eq_true hid ((hinv.agree r a (.inl hr) (.inr ⟨p, hobject⟩)).key heq).1
    · exact habsent p a h.by_self r hr heq
  · by_cases hqp : q = p
    · subst hqp
      have hended : s'.procs q = .ended := by
        rcases he with rfl | rfl <;> cases h <;> exact State.set_procs_self ..
      rw [hended] at hb
      cases hb
    · rw [h.procs_of_ne hqp] at hb
      exact ((hinv.fresh q b hb).2 p a (Ne.symm hqp) hobject).symm

/-- What is deleted in a run is gone at its end, when no update commits a row
that it has inserted. -/
lemma gone_of_runs (h₀ : Initial s₀) (hrun : Runs cols s₀ tr s)
    (hne : ∀ x ∈ tr, ∀ row, x.2 ≠ .reinserted row) {uuid : UUID} (hdel : Deletes uuid tr) :
    s.Gone uuid := by
  obtain ⟨p, a, rfl, hmem⟩ := hdel
  obtain ⟨e, he, hmem⟩ : ∃ e, (e = .deleted a ∨ e = .deletedNothing a) ∧ (p, e) ∈ tr := by
    rcases hmem with hmem | hmem
    · exact ⟨_, .inl rfl, hmem⟩
    · exact ⟨_, .inr rfl, hmem⟩
  obtain ⟨tr₁, tr₂, m, m', rfl, hrun₁, hst, hrun₂⟩ := hrun.exists_step hmem
  rw [List.forall_mem_append, List.forall_mem_cons] at hne
  have hnone : s₀.Absent := fun q b hq => by
    rw [h₀.procs q] at hq
    cases hq
  have hm : Inv m ∧ m.Absent :=
    hrun₁.invariant_of_forall (I := fun s => Inv s ∧ s.Absent)
      (P := fun x => ∀ row, x.2 ≠ .reinserted row)
      (fun _ x _ hx hi hst => ⟨hi.1.step hst, hi.2.step hi.1 hst hx⟩) hne.1 ⟨h₀.inv, hnone⟩
  exact (hrun₂.invariant_of_forall (I := fun s => Inv s ∧ s.Gone a.uuid)
    (P := fun x => ∀ row, x.2 ≠ .reinserted row)
    (fun _ x _ hx hi hst => ⟨hi.1.step hst, hi.2.step hi.1 hst hx⟩) hne.2.2
    ⟨hm.1.step hst, hm.1.gone_of_deleted hm.2 he hst⟩).2

/-! ### What is brought back -/

/-- The object of an update: it was loaded from a row. -/
def Proc.updates : Proc → Option AuthorityInstance
  | updating a _ | verifying a | verified a => if a.id = none then none else some a
  | missed a | updated a | reinserted a => some a
  | _ => none

/-- The object of an update whose UPDATE has matched no row. -/
def Proc.unmatched : Proc → Option AuthorityInstance
  | missed a | reinserted a => some a
  | _ => none

lemma Proc.object_of_updates {x : Proc} {a : AuthorityInstance} (h : x.updates = some a) :
    x.object = some a := by
  cases x <;> simp_all [updates, object]

/-- An update loads a row, or has loaded its object before. -/
lemma Step.updates_cases (h : Step cols s (p, e) s') {b : AuthorityInstance}
    (hb : (s'.procs p).updates = some b) :
    e = .loaded b ∧ b ∈ s.rows ∨ ∃ a, (s.procs p).updates = some a ∧ a.uuid = b.uuid := by
  cases h with
  | updateGet a h ha huuid =>
      rw [State.set_procs_self, Proc.updates] at hb
      split_ifs at hb
      cases hb
      exact .inl ⟨rfl, ha⟩
  | @assign p a c request h hassign =>
      have hkey := SameKey.updateAuthorityInstance hassign
      rw [State.set_procs_self, Proc.updates] at hb
      split_ifs at hb with hnone
      cases hb
      exact .inr ⟨a, by rw [h, Proc.updates, if_neg (hkey.id ▸ hnone)], hkey.uuid.symm⟩
  | @verify p a h htransport =>
      rw [State.set_procs_self] at hb
      exact .inr ⟨b, by rw [h]; exact hb, rfl⟩
  | @saveUpdate p a row h hid hcolumns | @saveMiss p a row h hid hcolumns =>
      rw [State.set_procs_self] at hb
      cases hb
      exact .inr ⟨a, by rw [h, Proc.updates, if_neg hid], (SameKey.columnsOf hcolumns).uuid.symm⟩
  | _ => simp_all [Proc.updates, newInstance]

/-- An update keeps the uuid of its object to its end. -/
lemma Step.updates_kept (h : Step cols s (p, e) s') {a : AuthorityInstance}
    (ha : (s.procs p).updates = some a) :
    s'.procs p = .ended ∨ ∃ b, (s'.procs p).updates = some b ∧ b.uuid = a.uuid := by
  cases h with
  | @assign p c b request h hassign =>
      have hkey := SameKey.updateAuthorityInstance hassign
      rw [h, Proc.updates] at ha
      split_ifs at ha with hnone
      cases ha
      refine .inr ⟨b, ?_, hkey.uuid⟩
      rw [State.set_procs_self, Proc.updates, if_neg (hkey.id ▸ hnone)]
  | @verify p c h htransport =>
      rw [h] at ha
      exact .inr ⟨a, by rw [State.set_procs_self]; exact ha, rfl⟩
  | saveNew h hid =>
      rw [h, Proc.updates, if_pos hid] at ha
      cases ha
  | @saveUpdate p c row h hid hcolumns | @saveMiss p c row h hid hcolumns =>
      rw [h, Proc.updates, if_neg hid] at ha
      cases ha
      exact .inr ⟨row, by rw [State.set_procs_self]; rfl, (SameKey.columnsOf hcolumns).uuid⟩
  | @saveInsert p c h =>
      rw [h] at ha
      cases ha
      exact .inr ⟨a, by rw [State.set_procs_self]; rfl, rfl⟩
  | createBegin | updateBegin | createCheck | updateGet | deleteBegin | deleteGet | deleteRow |
    deleteMiss => simp_all [Proc.updates]
  | _ => exact .inl (State.set_procs_self ..)

/-- A row stays, up to the fields of an update, unless a DELETE of it commits. -/
lemma Inv.exists_row (hinv : Inv s) (h : Step cols s (p, e) s') {r : AuthorityInstance}
    (hr : r ∈ s.rows) :
    (∃ r' ∈ s'.rows, r'.uuid = r.uuid) ∨ ∃ a, e = .deleted a ∧ a.uuid = r.uuid := by
  have hby := h.by_self
  rw [h.rows_eq]
  cases e with
  | created row => exact .inl ⟨r, List.mem_append_left _ hr, rfl⟩
  | reinserted row => exact .inl ⟨r, List.mem_append_left _ hr, rfl⟩
  | updated row =>
      refine .inl ⟨_, List.mem_map_of_mem hr, ?_⟩
      split_ifs with hid
      · have hobject : (s.procs p).object = some row := by
          rw [show s.procs p = .updated row from hby]
          rfl
        exact ((hinv.agree r row (.inl hr) (.inr ⟨p, hobject⟩)).uuid (hinv.rowsId r hr) hid).symm
      · rfl
  | deleted row =>
      by_cases hid : r.id = row.id
      · have hobject : (s.procs p).object = some row := by
          rw [show s.procs p = .deleted row from hby]
          rfl
        exact .inr ⟨row, rfl, ((hinv.agree r row (.inl hr) (.inr ⟨p, hobject⟩)).uuid
          (hinv.rowsId r hr) hid).symm⟩
      · exact .inl ⟨r, List.mem_filter.mpr ⟨hr, decide_eq_true hid⟩, rfl⟩
  | _ => exact .inl ⟨r, hr, rfl⟩

/-- Request `p` has read the row of a uuid, and a DELETE of it has committed since. -/
def Lost (tr : List (Pid × Event)) (p : Pid) (uuid : UUID) : Prop :=
  ∃ q a b, a.uuid = uuid ∧ b.uuid = uuid ∧
    [(p, Event.loaded a), (q, Event.deleted b)].Sublist tr

lemma Lost.mono {uuid : UUID} (h : Lost tr p uuid) (tr' : List (Pid × Event)) :
    Lost (tr ++ tr') p uuid := by
  obtain ⟨q, a, b, ha, hb, hsub⟩ := h
  exact ⟨q, a, b, ha, hb, hsub.trans (List.sublist_append_left _ _)⟩

/-- What the updates have read, and what has become of it. -/
structure Accounted (tr : List (Pid × Event)) (s : State) : Prop where
  read : ∀ p b, (s.procs p).updates = some b → ∃ a, a.uuid = b.uuid ∧ (p, .loaded a) ∈ tr
  row : ∀ p b, (s.procs p).updates = some b →
    (∃ r ∈ s.rows, r.uuid = b.uuid) ∨ Lost tr p b.uuid
  unmatched : ∀ p b, (s.procs p).unmatched = some b → Lost tr p b.uuid
  kept : ∀ p a, (p, Event.loaded a) ∈ tr →
    s.procs p = .ended ∨ ∃ b, (s.procs p).updates = some b ∧ b.uuid = a.uuid

namespace Accounted

lemma read_step (ha : Accounted tr s) (h : Step cols s (p, e) s') {b : AuthorityInstance}
    (hb : (s'.procs q).updates = some b) :
    ∃ a, a.uuid = b.uuid ∧ (q, Event.loaded a) ∈ tr ++ [(p, e)] := by
  have hold : ∀ a, (s.procs q).updates = some a → a.uuid = b.uuid →
      ∃ a, a.uuid = b.uuid ∧ (q, Event.loaded a) ∈ tr ++ [(p, e)] := by
    intro a hq heq
    obtain ⟨a', huuid, hmem⟩ := ha.read q a hq
    exact ⟨a', huuid.trans heq, List.mem_append_left _ hmem⟩
  by_cases hqp : q = p
  · subst hqp
    rcases h.updates_cases hb with ⟨rfl, -⟩ | ⟨a, hq, huuid⟩
    · exact ⟨b, rfl, by simp⟩
    · exact hold a hq huuid
  · rw [h.procs_of_ne hqp] at hb
    exact hold b hb rfl

lemma row_step (ha : Accounted tr s) (hinv : Inv s) (h : Step cols s (p, e) s')
    {b : AuthorityInstance} (hb : (s'.procs q).updates = some b) :
    (∃ r ∈ s'.rows, r.uuid = b.uuid) ∨ Lost (tr ++ [(p, e)]) q b.uuid := by
  -- what an update has read before this step stays, or is deleted by it
  have hold : ∀ a, (s.procs q).updates = some a → a.uuid = b.uuid →
      (∃ r ∈ s'.rows, r.uuid = b.uuid) ∨ Lost (tr ++ [(p, e)]) q b.uuid := by
    intro a hq heq
    rcases ha.row q a hq with ⟨r, hr, huuid⟩ | hlost
    · rcases hinv.exists_row h hr with ⟨r', hr', huuid'⟩ | ⟨d, rfl, huuid'⟩
      · exact .inl ⟨r', hr', huuid'.trans (huuid.trans heq)⟩
      · obtain ⟨a', ha', hmem⟩ := ha.read q a hq
        exact .inr ⟨p, a', d, ha'.trans heq, huuid'.trans (huuid.trans heq),
          (List.singleton_sublist.mpr hmem).append (.refl _)⟩
    · exact .inr (heq ▸ hlost.mono _)
  by_cases hqp : q = p
  · subst hqp
    rcases h.updates_cases hb with ⟨rfl, hmem⟩ | ⟨a, hq, huuid⟩
    · exact .inl ⟨b, by rw [h.rows_eq]; exact hmem, rfl⟩
    · exact hold a hq huuid
  · rw [h.procs_of_ne hqp] at hb
    exact hold b hb rfl

lemma unmatched_step (ha : Accounted tr s) (hinv : Inv s) (h : Step cols s (p, e) s')
    {b : AuthorityInstance} (hb : (s'.procs q).unmatched = some b) :
    Lost (tr ++ [(p, e)]) q b.uuid := by
  by_cases hqp : q = p
  · subst hqp
    cases h with
    | @saveMiss q a row h hid hcolumns hrow =>
        rw [State.set_procs_self] at hb
        cases hb
        have hupdates : (s.procs q).updates = some a := by rw [h, Proc.updates, if_neg hid]
        rw [(SameKey.columnsOf hcolumns).uuid]
        refine (ha.row q a hupdates).elim (fun ⟨r, hr, huuid⟩ => ?_) fun hlost => hlost.mono _
        have hobject := Proc.object_of_updates hupdates
        exact absurd ((hinv.agree r a (.inl hr) (.inr ⟨q, hobject⟩)).key huuid).1 (hrow r hr)
    | saveInsert h hrow hfree =>
        rw [State.set_procs_self] at hb
        cases hb
        exact (ha.unmatched q b (by rw [h]; rfl)).mono _
    | _ => simp [Proc.unmatched] at hb
  · rw [h.procs_of_ne hqp] at hb
    exact (ha.unmatched q b hb).mono _

lemma kept_step (ha : Accounted tr s) (hinv : Inv s) (h : Step cols s (p, e) s')
    {a : AuthorityInstance} (hmem : (q, Event.loaded a) ∈ tr ++ [(p, e)]) :
    s'.procs q = .ended ∨ ∃ b, (s'.procs q).updates = some b ∧ b.uuid = a.uuid := by
  rcases List.mem_append.mp hmem with hread | hread
  · by_cases hqp : q = p
    · subst hqp
      obtain ⟨b, hb, huuid⟩ := (ha.kept q a hread).resolve_left h.not_ended
      exact (h.updates_kept hb).imp_right fun ⟨b', hb', huuid'⟩ => ⟨b', hb', huuid'.trans huuid⟩
    · rw [h.procs_of_ne hqp]
      exact ha.kept q a hread
  · obtain ⟨rfl, rfl⟩ := Prod.mk.inj (List.mem_singleton.mp hread)
    cases h with
    | updateGet a h ha huuid =>
        refine .inr ⟨a, ?_, rfl⟩
        rw [State.set_procs_self, Proc.updates, if_neg (hinv.rowsId a ha)]

lemma step (ha : Accounted tr s) (hinv : Inv s) (h : Step cols s (p, e) s') :
    Accounted (tr ++ [(p, e)]) s' where
  read _ _ hb := ha.read_step h hb
  row _ _ hb := ha.row_step hinv h hb
  unmatched _ _ hb := ha.unmatched_step hinv h hb
  kept _ _ hmem := ha.kept_step hinv h hmem

end Accounted

lemma accounted_of_runs (h₀ : Initial s₀) (hrun : Runs cols s₀ tr s) : Accounted tr s := by
  have hnone : ∀ q, (s₀.procs q).updates = none ∧ (s₀.procs q).unmatched = none := by
    intro q
    rw [h₀.procs q]
    exact ⟨rfl, rfl⟩
  refine hrun.trace_invariant (T := Accounted) (fun _ _ _ hinv h => hinv.step h)
    (fun _ _ _ _ hinv hacc h => hacc.step hinv h) h₀.inv ⟨?_, ?_, ?_, fun _ _ hmem => ?_⟩
  · intro q b hb
    rw [(hnone q).1] at hb
    cases hb
  · intro q b hb
    rw [(hnone q).1] at hb
    cases hb
  · intro q b hb
    rw [(hnone q).2] at hb
    cases hb
  · cases hmem

/-! ### Along a run -/

/-- The commit of an update. -/
def Event.Saves (row : AuthorityInstance) (e : Event) : Prop :=
  e = .updated row ∨ e = .reinserted row

/-- An update commits though a DELETE of its row has committed since it read the row. -/
def Overtaken (tr : List (Pid × Event)) : Prop :=
  ∃ p q a b e row, e.Saves row ∧ b.uuid = a.uuid ∧
    [(p, Event.loaded a), (q, Event.deleted b), (p, e)].Sublist tr

/-- Once a DELETE of a uuid has committed in the run, no later committed state
contains a row with that uuid. -/
def StaysDeleted (cols : Columns) (s₀ : State) (tr : List (Pid × Event)) (s : State) : Prop :=
  ∀ tr₁ tr₂ m, tr = tr₁ ++ tr₂ → Runs cols s₀ tr₁ m → Runs cols m tr₂ s →
    ∀ uuid, Deletes uuid tr₁ → ∀ r ∈ m.rows, r.uuid ≠ uuid

/-- The row of an update is there once it has committed. -/
lemma Step.mem_of_saves (h : Step cols s (p, e) s') (hinv : Inv s) (hl : Locks s)
    {row : AuthorityInstance} (he : e.Saves row) :
    (s.procs p).updates = some row ∧ row ∈ s'.rows := by
  have hby := h.by_self
  rw [h.rows_eq]
  rcases he with rfl | rfl
  · have hproc : s.procs p = .updated row := hby
    have hid := hinv.savingId p row (by rw [hproc]; rfl)
    obtain ⟨r, hr, hkey⟩ := hl.exists_locked hinv (p := p) (by rw [hproc]; rfl)
      (by rw [hproc]; rfl) hid
    exact ⟨by rw [hproc]; rfl, List.mem_map.mpr ⟨r, hr, if_pos hkey.id⟩⟩
  · have hproc : s.procs p = .reinserted row := hby
    exact ⟨by rw [hproc]; rfl, List.mem_append_right _ List.mem_cons_self⟩

/-- The row of an update that is overtaken is there after the DELETE of it. -/
lemma not_staysDeleted_of_overtaken (h₀ : Initial s₀) (hrun : Runs cols s₀ tr s)
    (hover : Overtaken tr) : ¬ StaysDeleted cols s₀ tr s := by
  obtain ⟨p, q, a, b, e, row, he, huuid, hsub⟩ := hover
  have hsub : ([(p, Event.loaded a), (q, Event.deleted b)] ++ [(p, e)]).Sublist tr := hsub
  obtain ⟨tr₁, tr₂, m, m', rfl, hpair, hrun₁, hst, hrun₂⟩ := hrun.exists_step_of_sublist hsub
  have hinv := inv_of_runs h₀ hrun₁
  obtain ⟨hupdates, hrow⟩ := hst.mem_of_saves hinv (h₀.locks_of_runs hrun₁) he
  -- the object saved is the one of the row that was read
  obtain ⟨c, hc, hcuuid⟩ := ((accounted_of_runs h₀ hrun₁).kept p a
    (hpair.subset List.mem_cons_self)).resolve_left hst.not_ended
  obtain rfl : row = c := Option.some.inj (hupdates.symm.trans hc)
  have hdel : Deletes b.uuid (tr₁ ++ [(p, e)]) :=
    ⟨q, b, rfl, .inl (List.mem_append_left _ (hpair.subset (by simp)))⟩
  exact fun hstays => hstays (tr₁ ++ [(p, e)]) tr₂ m' (by simp) (hrun₁.tail hst) hrun₂ b.uuid hdel
    row hrow (hcuuid.trans huuid.symm)

/-- **A deleted authority instance stays deleted** exactly in the runs in which no
DELETE of a row commits between the read of an update of the row and its commit. -/
theorem staysDeleted_iff (h₀ : Initial s₀) (hrun : Runs cols s₀ tr s) :
    StaysDeleted cols s₀ tr s ↔ ¬ Overtaken tr := by
  constructor
  · exact fun hstays hover => not_staysDeleted_of_overtaken h₀ hrun hover hstays
  · intro hnot
    have hne : ∀ x ∈ tr, ∀ row, x.2 ≠ .reinserted row := by
      rintro ⟨p, _⟩ hmem row rfl
      obtain ⟨tr₁, tr₂, m, m', rfl, hrun₁, hst, -⟩ := hrun.exists_step hmem
      -- an update that has inserted its row was overtaken
      have hx : m.procs p = .reinserted row := hst.by_self
      obtain ⟨q, a, b, ha, hb, hsub⟩ :=
        (accounted_of_runs h₀ hrun₁).unmatched p row (by rw [hx]; rfl)
      exact hnot ⟨p, q, a, b, _, row, .inr rfl, hb.trans ha.symm,
        hsub.append (List.singleton_sublist.mpr List.mem_cons_self)⟩
    intro tr₁ tr₂ m heq hrun₁ _ uuid hdel
    refine (gone_of_runs h₀ hrun₁ (fun x hx => hne x ?_) hdel).row
    rw [heq]
    exact List.mem_append_left _ hx

/-! ### An update during which its instance is deleted -/

/-- An update until its connection is verified. -/
lemma run_update {a b : AuthorityInstance} {request : AuthorityRequest} (hp : s.procs p = .idle)
    (ha : a ∈ s.rows) (hassign : updateAuthorityInstance request a = .ok b)
    (htransport : b.transport = .str "credssp") :
    Runs cols s [(p, .statement), (p, .loaded a), (p, .statement), (p, .statement)]
      (s.set p (.verified b)) := by
  have h := ((((.refl : Runs cols s [] s).tail (.updateBegin a.uuid request hp)).tail
    (.updateGet a (State.set_procs_self ..) ha rfl)).tail
    (.assign (State.set_procs_self ..) hassign)).tail (.verify (State.set_procs_self ..) htransport)
  simpa only [State.set_set, List.nil_append, List.cons_append] using h

/-- A DELETE. -/
lemma run_delete {a : AuthorityInstance} (hp : s.procs p = .idle) (ha : a ∈ s.rows)
    (hfree : s.RowFree p a.id) :
    Runs cols s [(p, .statement), (p, .statement), (p, .statement), (p, .deleted a)]
      (State.set { s with rows := s.rows.filter fun r => r.id ≠ a.id } p .ended) := by
  have hfree' : (s.set p (.deleting a)).RowFree p a.id := fun q hq => by
    rw [State.set_procs_of_ne _ _ hq]
    exact hfree q hq
  have h₂ : Runs cols s [(p, .statement), (p, .statement)] (s.set p (.deleting a)) := by
    have h := ((.refl : Runs cols s [] s).tail (.deleteBegin a.uuid hp)).tail
      (.deleteGet a (State.set_procs_self ..) ha rfl)
    simpa only [State.set_set, List.nil_append, List.cons_append] using h
  have h₄ := (h₂.tail (.deleteRow (State.set_procs_self ..) ⟨a, ha, rfl⟩ hfree')).tail
    (.deleteCommit (State.set_procs_self ..))
  simpa only [State.set, Function.update_idem, List.nil_append, List.cons_append] using h₄

/-- The save of an update whose row is gone. -/
lemma run_resave {a row : AuthorityInstance} (hp : s.procs p = .verified a) (hid : a.id ≠ none)
    (hcolumns : columnsOf cols a = .ok row) (hrow : ∀ r ∈ s.rows, r.id ≠ a.id)
    (hfree : s.KeyFree p a.id) :
    Runs cols s [(p, .statement), (p, .statement), (p, .reinserted row)]
      (State.set { s with rows := s.rows ++ [row] } p .ended) := by
  have hkey := (SameKey.columnsOf hcolumns).id
  have hfree' : (s.set p (.missed row)).KeyFree p row.id := fun q hq => by
    rw [State.set_procs_of_ne _ _ hq, hkey]
    exact hfree q hq
  have h := (((.refl : Runs cols s [] s).tail (.saveMiss hp hid hcolumns hrow)).tail
    (.saveInsert (State.set_procs_self ..) (hkey ▸ hrow) hfree')).tail
    (.reinsertCommit (State.set_procs_self ..))
  simpa only [State.set, Function.update_idem, List.nil_append, List.cons_append] using h

/-- A table of one row. -/
def oneRow : State := ⟨[sampleInstance], 2, [7], fun _ => .idle⟩

lemma oneRow_initial : Initial oneRow where
  rowsId := List.forall_mem_singleton.mpr ⟨1, Nat.one_lt_two, rfl⟩
  rowsUuid := List.forall_mem_singleton.mpr List.mem_cons_self
  id := List.nodup_singleton _
  uuid := List.nodup_singleton _
  procs _ := rfl

/-- An update has verified the connection when its row is deleted. -/
lemma run_delete_sample (cols : Columns) : Runs cols oneRow
    [(0, .statement), (0, .loaded sampleInstance), (0, .statement), (0, .statement),
      (1, .statement), (1, .statement), (1, .statement), (1, .deleted sampleInstance)]
    (State.set { oneRow.set 0 (.verified sampleUpdated) with rows := [] } 1 .ended) := by
  have hupdate := @run_update cols oneRow 0 _ _ _ rfl List.mem_cons_self
    updateAuthorityInstance_sample rfl
  exact hupdate.trans (run_delete (s := oneRow.set 0 (.verified sampleUpdated)) (p := 1)
    (a := sampleInstance) rfl List.mem_cons_self fun q _ => by
      by_cases hq : q = 0
      · rw [hq, State.set_procs_self]
        exact (Option.some_ne_none 1).symm
      · rw [State.set_procs_of_ne _ _ hq]
        exact (Option.some_ne_none 1).symm)

/-- The update dies, and the instance stays deleted. -/
theorem staysDeleted_sample : ∃ tr s, Deletes 7 tr ∧ Runs sampleColumns oneRow tr s ∧
    StaysDeleted sampleColumns oneRow tr s := by
  have hrun := (run_delete_sample sampleColumns).tail (.crash (p := 0) rfl)
  refine ⟨_, _, ⟨1, sampleInstance, rfl, .inl (by simp)⟩, hrun,
    (staysDeleted_iff oneRow_initial hrun).mpr ?_⟩
  rintro ⟨p, q, a, b, e, row, he, -, hsub⟩
  have hmem := hsub.subset (a := (p, e)) (by simp)
  rcases he with rfl | rfl <;> simp at hmem

/-- The update saves the row after it was deleted. -/
theorem update_resurrects :
    ¬ ∀ cols s₀ tr s, Initial s₀ → Runs cols s₀ tr s → StaysDeleted cols s₀ tr s := by
  intro h
  have hsave := @run_resave sampleColumns
    (State.set { oneRow.set 0 (.verified sampleUpdated) with rows := [] } 1 .ended) 0 _ _ rfl
    (Option.some_ne_none 1) columnsOf_sample (List.forall_mem_nil _) fun q hq a ha => by
      by_cases hq1 : q = 1
      · rw [hq1, State.set_procs_self] at ha
        cases ha
      · rw [State.set_procs_of_ne _ _ hq1] at ha
        change ((oneRow.set 0 (.verified sampleUpdated)).procs q).pending = some a at ha
        rw [State.set_procs_of_ne _ _ hq] at ha
        cases ha
  have hrun := (run_delete_sample sampleColumns).trans hsave
  exact h _ _ _ _ oneRow_initial hrun _ [] _ (List.append_nil _).symm hrun .refl 7
    ⟨1, sampleInstance, rfl, .inl (by simp)⟩ sampleUpdated List.mem_cons_self rfl

end Authority

end AdcsConnector
