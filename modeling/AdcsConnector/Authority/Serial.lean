/-
The requests on authority instances one after the other.

* `Call`, `Serial`: what a request does to a table that no one else uses, with
  `Serial.exists_run`: a request that is alone does this;
* `Stage`: where the request of a call stands, with the object it has made of it;
* `Coherent`: every request stands at a stage of its call, and locks are sound;
* `serial_iff_orderly`: a commit does what its call does to the table it finds, unless a
  create commits a name that is there, or an update inserts its row anew;
* `serial_of_runs`: without these two, the requests act in the order of their commits.
-/
import AdcsConnector.Authority.Verified

namespace AdcsConnector

namespace Authority

variable {cols : Columns} {s s' s₀ : State} {p q : Pid} {e : Event} {tr : List (Pid × Event)}
  {a b row r : AuthorityInstance} {request : AuthorityRequest} {uuid : UUID} {i : ℕ}
  {rows rows' : List AuthorityInstance}

/-! ### Calls -/

/-- A call of a view that writes. -/
inductive Call where
  | create (request : AuthorityRequest)
  | update (uuid : UUID) (request : AuthorityRequest)
  | delete (uuid : UUID)

/-- The request, once it is made. -/
def Call.begun : Call → Proc
  | create request => .createBegun request
  | update uuid request => .updateBegun uuid request
  | delete uuid => .deleteBegun uuid

/-- A call that succeeds, on a table that no one else uses. -/
inductive Serial (cols : Columns) (rows : List AuthorityInstance) :
    Call → List AuthorityInstance → Prop
  | create {request : AuthorityRequest} {uuid : UUID} {i : ℕ} {b row : AuthorityInstance}
      (hname : ∀ r ∈ rows, r.name ≠ request.name) (huuid : ∀ r ∈ rows, r.uuid ≠ uuid)
      (hid : ∀ r ∈ rows, r.id ≠ some i)
      (hassign : updateAuthorityInstance request (newInstance uuid request) = .ok b)
      (hcolumns : columnsOf cols b = .ok row) :
      Serial cols rows (.create request) (rows ++ [{ row with id := some i }])
  | update {request : AuthorityRequest} {a b row : AuthorityInstance} (ha : a ∈ rows)
      (hassign : updateAuthorityInstance request a = .ok b)
      (hcolumns : columnsOf cols b = .ok row) :
      Serial cols rows (.update a.uuid request) (rows.map fun r => if r.id = a.id then row else r)
  | delete {a : AuthorityInstance} (ha : a ∈ rows) :
      Serial cols rows (.delete a.uuid) (rows.filter fun r => r.id ≠ a.id)

/-- The event changes the table. -/
def Event.changesTable : Event → Bool
  | created _ | updated _ | reinserted _ | deleted _ => true
  | _ => false

/-- The commit of a create whose name is new, of an update that has found its row, or of
a DELETE. -/
def Event.Orderly (rows : List AuthorityInstance) : Event → Prop
  | created row => ∀ r ∈ rows, r.name ≠ row.name
  | reinserted _ => False
  | _ => True

/-- A request that is alone does what its call does to the table. -/
lemma Serial.exists_run {c : Call} (h : Serial cols rows c rows')
    (hrows : ∀ r ∈ rows, r.id ≠ none) (p : Pid) :
    ∃ s tr s', s.rows = rows ∧ s.procs p = c.begun ∧ (∀ q, q ≠ p → s.procs q = .idle) ∧
      Runs cols s tr s' ∧ (∀ x ∈ tr, x.1 = p) ∧ s'.procs p = .ended ∧ s'.rows = rows' := by
  have hself : ∀ (s : State) (x : Proc), (s.set p x).procs p = x := fun s x =>
    State.set_procs_self s p x
  have hfree : ∀ x : Proc, ∀ id : Option ℕ, id ≠ none →
      (State.set ⟨rows, 0, [], fun _ => .idle⟩ p x).RowFree p id := by
    intro x id hid q hq
    rw [State.set_procs_of_ne _ _ hq]
    exact hid.symm
  cases h with
  | @create request uuid i b row hname huuid hid hassign hcolumns =>
      have htransport := (ofRequest_of_update hassign).transport.1
      have hnone : b.id = none := (SameKey.updateAuthorityInstance hassign).id
      -- the sequence stands at the id that the row is to be given
      have hr := Run.single (Step.createCheck (c := cols)
        (s := State.set ⟨rows, i, [], fun _ => .idle⟩ p (.createBegun request)) uuid (hself _ _)
        hname List.not_mem_nil)
      -- `update_authority_instance` assigns and verifies
      have hr := hr.tail (Step.assign (hself _ _) hassign)
      have hr := hr.tail (Step.verify (hself _ _) htransport)
      -- an object without an id is inserted
      have hr := hr.tail (Step.saveNew (hself _ _) hnone hcolumns)
      have hr := hr.tail (Step.createCommit (hself _ _))
      exact ⟨_, _, _, rfl, hself _ _, fun q hq => State.set_procs_of_ne _ _ hq, hr, by simp,
        hself _ _, rfl⟩
  | @update request a b row ha hassign hcolumns =>
      have htransport := (ofRequest_of_update hassign).transport.1
      have hid := (SameKey.updateAuthorityInstance hassign).id
      have hne : b.id ≠ none := hid ▸ hrows a ha
      -- the view loads the row
      have hr := Run.single (Step.updateGet (c := cols)
        (s := State.set ⟨rows, 0, [], fun _ => .idle⟩ p (.updateBegun a.uuid request)) a
        (hself _ _) ha rfl)
      have hr := hr.tail (Step.assign (hself _ _) hassign)
      have hr := hr.tail (Step.verify (hself _ _) htransport)
      simp only [State.set_set] at hr
      -- it is still there, and no one else has it locked
      have hr := hr.tail (Step.saveUpdate (hself _ _) hne hcolumns ⟨a, ha, hid.symm⟩
        (hfree _ _ hne))
      have hr := hr.tail (Step.updateCommit (hself _ _))
      rw [← hid, ← (SameKey.columnsOf hcolumns).id]
      exact ⟨_, _, _, rfl, hself _ _, fun q hq => State.set_procs_of_ne _ _ hq, hr, by simp,
        hself _ _, rfl⟩
  | @delete a ha =>
      -- the row that is loaded is the row deleted
      have hr := Run.single (Step.deleteGet (c := cols)
        (s := State.set ⟨rows, 0, [], fun _ => .idle⟩ p (.deleteBegun a.uuid)) a (hself _ _) ha
        rfl)
      simp only [State.set_set] at hr
      have hr := hr.tail (Step.deleteRow (hself _ _) ⟨a, ha, rfl⟩ (hfree _ _ (hrows a ha)))
      have hr := hr.tail (Step.deleteCommit (hself _ _))
      exact ⟨_, _, _, rfl, hself _ _, fun q hq => State.set_procs_of_ne _ _ hq, hr, by simp,
        hself _ _, rfl⟩

/-! ### The stages of a call -/

/-- An object that an update has assigned its fields to. -/
def Assigned (uuid : UUID) (request : AuthorityRequest) (b : AuthorityInstance) : Prop :=
  b.id ≠ none ∧ ∃ a : AuthorityInstance, a.uuid = uuid ∧ updateAuthorityInstance request a = .ok b

/-- A row that is saved for such an object. -/
def Saves (cols : Columns) (uuid : UUID) (request : AuthorityRequest) (row : AuthorityInstance) :
    Prop :=
  ∃ b, Assigned uuid request b ∧ columnsOf cols b = .ok row

/-- Where a request stands, with what it has made of its call. -/
inductive Stage (cols : Columns) : Call → Proc → Prop
  | createBegun (request : AuthorityRequest) : Stage cols (.create request) (.createBegun request)
  | updateBegun (uuid : UUID) (request : AuthorityRequest) :
      Stage cols (.update uuid request) (.updateBegun uuid request)
  | deleteBegun (uuid : UUID) : Stage cols (.delete uuid) (.deleteBegun uuid)
  | creating (uuid : UUID) (request : AuthorityRequest) :
      Stage cols (.create request) (.updating (newInstance uuid request) request)
  | createVerifying {request : AuthorityRequest} (uuid : UUID) {b : AuthorityInstance}
      (h : updateAuthorityInstance request (newInstance uuid request) = .ok b) :
      Stage cols (.create request) (.verifying b)
  | createVerified {request : AuthorityRequest} (uuid : UUID) {b : AuthorityInstance}
      (h : updateAuthorityInstance request (newInstance uuid request) = .ok b) :
      Stage cols (.create request) (.verified b)
  | inserted {request : AuthorityRequest} (uuid : UUID) {b row : AuthorityInstance} (i : ℕ)
      (h : updateAuthorityInstance request (newInstance uuid request) = .ok b)
      (hcolumns : columnsOf cols b = .ok row) :
      Stage cols (.create request) (.inserted { row with id := some i })
  | updating {request : AuthorityRequest} {a : AuthorityInstance} (hid : a.id ≠ none) :
      Stage cols (.update a.uuid request) (.updating a request)
  | verifying {uuid : UUID} {request : AuthorityRequest} {b : AuthorityInstance}
      (h : Assigned uuid request b) : Stage cols (.update uuid request) (.verifying b)
  | verified {uuid : UUID} {request : AuthorityRequest} {b : AuthorityInstance}
      (h : Assigned uuid request b) : Stage cols (.update uuid request) (.verified b)
  | missed {uuid : UUID} {request : AuthorityRequest} {row : AuthorityInstance}
      (h : Saves cols uuid request row) : Stage cols (.update uuid request) (.missed row)
  | updated {uuid : UUID} {request : AuthorityRequest} {row : AuthorityInstance}
      (h : Saves cols uuid request row) : Stage cols (.update uuid request) (.updated row)
  | reinserted {uuid : UUID} {request : AuthorityRequest} {row : AuthorityInstance}
      (h : Saves cols uuid request row) : Stage cols (.update uuid request) (.reinserted row)
  | deleting {a : AuthorityInstance} (hid : a.id ≠ none) : Stage cols (.delete a.uuid) (.deleting a)
  | deleted {a : AuthorityInstance} (hid : a.id ≠ none) : Stage cols (.delete a.uuid) (.deleted a)
  | deleteMissed (a : AuthorityInstance) : Stage cols (.delete a.uuid) (.deleteMissed a)

/-- An update keeps the kind, which is the connector's. -/
lemma kind_of_update (h : updateAuthorityInstance request a = .ok b) :
    b.kind = a.kind ∧ a.kind = "PyADCS-WinRM" := by
  simp only [updateAuthorityInstance, Except.bind_eq_ok_iff] at h
  obtain ⟨_, hkind, _, -, _, -, ⟨⟩⟩ := h
  rw [validateAuthorityKind] at hkind
  split_ifs at hkind with hk
  exact ⟨rfl, hk⟩

lemma kind_eq_of_update (h : updateAuthorityInstance request a = .ok b) :
    b.kind = "PyADCS-WinRM" :=
  (kind_of_update h).1.trans (kind_of_update h).2

/-- What an update makes of an object depends on its key, its name and its kind only. -/
lemma update_congr {a' : AuthorityInstance} (hkey : SameKey a' a) (hkind : a'.kind = a.kind)
    (h : updateAuthorityInstance request a = .ok b) :
    updateAuthorityInstance request a' = .ok b := by
  simp only [updateAuthorityInstance, Except.bind_eq_ok_iff] at h ⊢
  obtain ⟨u, hvalid, names, hnames, attributes, hmerge, ⟨⟩⟩ := h
  refine ⟨u, hkind ▸ hvalid, names, hkind ▸ hnames, attributes, hmerge, ?_⟩
  rw [hkey.id, hkey.uuid, hkey.name, hkind]
  rfl

namespace Stage

variable {c : Call}

/-- A step takes a request on within its call. -/
lemma step (hrows : ∀ r ∈ s.rows, r.id ≠ none) (hs : Stage cols c (s.procs p))
    (h : Step cols s (p, e) s') : s'.procs p = .ended ∨ Stage cols c (s'.procs p) := by
  cases h with
  | createBegin request h | updateBegin uuid request h | deleteBegin uuid h =>
      rw [h] at hs
      cases hs
  | createCheck uuid h =>
      rw [h] at hs
      cases hs
      exact .inr (by rw [State.set_procs_self]; exact .creating _ _)
  | updateGet a h ha huuid =>
      rw [h] at hs
      cases hs
      subst huuid
      exact .inr (by rw [State.set_procs_self]; exact .updating (hrows a ha))
  | assign h hassign =>
      rw [h] at hs
      rw [State.set_procs_self]
      cases hs with
      | creating => exact .inr (.createVerifying _ hassign)
      | updating hid =>
          exact .inr (.verifying ⟨(SameKey.updateAuthorityInstance hassign).id ▸ hid, _, rfl,
            hassign⟩)
  | verify h htransport =>
      rw [h] at hs
      rw [State.set_procs_self]
      cases hs with
      | createVerifying uuid hassign => exact .inr (.createVerified uuid hassign)
      | verifying hassigned => exact .inr (.verified hassigned)
  | saveNew h hid hcolumns =>
      rw [h] at hs
      rw [State.set_procs_self]
      cases hs with
      | createVerified uuid hassign => exact .inr (.inserted uuid _ hassign hcolumns)
      | verified hassigned => exact absurd hid hassigned.1
  | saveUpdate h hid hcolumns =>
      rw [h] at hs
      rw [State.set_procs_self]
      cases hs with
      | createVerified uuid hassign =>
          exact absurd (SameKey.updateAuthorityInstance hassign).id hid
      | verified hassigned => exact .inr (.updated ⟨_, hassigned, hcolumns⟩)
  | saveMiss h hid hcolumns =>
      rw [h] at hs
      rw [State.set_procs_self]
      cases hs with
      | createVerified uuid hassign =>
          exact absurd (SameKey.updateAuthorityInstance hassign).id hid
      | verified hassigned => exact .inr (.missed ⟨_, hassigned, hcolumns⟩)
  | saveInsert h =>
      rw [h] at hs
      cases hs with
      | missed hsaves => exact .inr (by rw [State.set_procs_self]; exact .reinserted hsaves)
  | deleteGet a h ha huuid =>
      rw [h] at hs
      cases hs
      subst huuid
      exact .inr (by rw [State.set_procs_self]; exact .deleting (hrows a ha))
  | deleteRow h =>
      rw [h] at hs
      cases hs with
      | deleting hid => exact .inr (by rw [State.set_procs_self]; exact .deleted hid)
  | deleteMiss h =>
      rw [h] at hs
      cases hs
      exact .inr (by rw [State.set_procs_self]; exact .deleteMissed _)
  | _ => exact .inl (State.set_procs_self ..)

/-- The row of a save is of the connector's kind. -/
lemma kind_of_saving {x : Proc} (hs : Stage cols c x) (ha : x.saving = some row) :
    row.kind = "PyADCS-WinRM" := by
  cases hs <;> simp only [Proc.saving, Option.some.injEq, reduceCtorEq] at ha
  case inserted uuid b row' i h hcolumns =>
    subst ha
    exact (kind_of_columnsOf hcolumns).trans (kind_eq_of_update h)
  all_goals
    subst ha
    rename_i hsaves
    obtain ⟨b, ⟨-, _, -, hassign⟩, hcolumns⟩ := hsaves
    exact (kind_of_columnsOf hcolumns).trans (kind_eq_of_update hassign)

end Stage

/-! ### The invariant -/

/-- The requests that are made are those of the calls. -/
def State.Requested (s : State) (calls : Pid → Call) : Prop :=
  ∀ p call, s.procs p = call.begun → calls p = call

/-- Every request stands at a stage of its call; locks are sound; the rows are of the
connector's kind. -/
structure Coherent (cols : Columns) (calls : Pid → Call) (s : State) : Prop where
  stage : ∀ p, s.procs p = .idle ∨ s.procs p = .ended ∨ Stage cols (calls p) (s.procs p)
  locks : Locks s
  kind : ∀ r ∈ s.rows, r.kind = "PyADCS-WinRM"

namespace Coherent

variable {calls : Pid → Call}

/-- A request that is under way stands at a stage of its call. -/
lemma stage_of (hc : Coherent cols calls s) {x : Proc} (hp : s.procs p = x) (hx : x.active = true) :
    Stage cols (calls p) x := by
  subst hp
  rcases hc.stage p with h | h | h
  · rw [h] at hx
    cases hx
  · rw [h] at hx
    cases hx
  · exact h

lemma stage_step (hc : Coherent cols calls s) (hinv : Inv s) (h : Step cols s (p, e) s')
    (hrequested : s'.Requested calls) (q : Pid) :
    s'.procs q = .idle ∨ s'.procs q = .ended ∨ Stage cols (calls q) (s'.procs q) := by
  by_cases hq : q = p
  · subst hq
    rcases hc.stage q with hidle | hended | hstage
    · -- the call is made
      have hbegun : s'.procs q = .ended ∨ ∃ call : Call, s'.procs q = call.begun := by
        cases h with
        | createBegin request h => exact .inr ⟨.create request, State.set_procs_self ..⟩
        | updateBegin uuid request h => exact .inr ⟨.update uuid request, State.set_procs_self ..⟩
        | deleteBegin uuid h => exact .inr ⟨.delete uuid, State.set_procs_self ..⟩
        | crash h => exact .inl (State.set_procs_self ..)
        | _ => simp_all
      rcases hbegun with hended | ⟨call, hcall⟩
      · exact .inr (.inl hended)
      · rw [hrequested q call hcall, hcall]
        cases call <;> exact .inr (.inr (by constructor))
    · cases h <;> simp_all [Proc.active]
    · exact .inr (hstage.step hinv.rowsId h)
  · rw [h.procs_of_ne hq]
    exact hc.stage q

/-- The row that is committed is the object of a save. -/
lemma kind_step (hc : Coherent cols calls s) (h : Step cols s (p, e) s') (hr : r ∈ s'.rows) :
    r.kind = "PyADCS-WinRM" := by
  have hsaving : ∀ x, s.procs p = x → x.saving = some r → r.kind = "PyADCS-WinRM" := by
    rintro _ rfl hsaving
    rcases hc.stage p with hidle | hended | hstage
    · rw [hidle] at hsaving
      cases hsaving
    · rw [hended] at hsaving
      cases hsaving
    · exact hstage.kind_of_saving hsaving
  have hby := h.by_self
  rw [h.rows_eq] at hr
  rcases Event.mem_commit hr with hr | rfl | rfl | ⟨rfl, -⟩
  · exact hc.kind r hr
  · exact hsaving _ hby rfl
  · exact hsaving _ hby rfl
  · exact hsaving _ hby rfl

lemma step (hc : Coherent cols calls s) (hinv : Inv s) (h : Step cols s (p, e) s')
    (hrequested : s'.Requested calls) : Coherent cols calls s' where
  stage := hc.stage_step hinv h hrequested
  locks := hc.locks.step h
  kind _ hr := hc.kind_step h hr

end Coherent

lemma Initial.coherent (h : Initial s) (hkind : ∀ r ∈ s.rows, r.kind = "PyADCS-WinRM")
    (calls : Pid → Call) : Coherent cols calls s where
  stage p := .inl (h.procs p)
  locks := h.locks
  kind := hkind

/-! ### The commits -/

section Commits

variable {calls : Pid → Call}

/-- A create commits what its call does to the table, when the name is new. -/
lemma serial_created_iff (hinv : Inv s) (hc : Coherent cols calls s)
    (hp : s.procs p = .inserted a) :
    Serial cols s.rows (calls p) (s.rows ++ [a]) ↔ ∀ r ∈ s.rows, r.name ≠ a.name := by
  have hstage := hc.stage_of hp rfl
  have hfresh := (hinv.fresh p a (by rw [hp]; rfl)).1
  have hobject : (s.procs p).object = some a := by rw [hp]; rfl
  generalize calls p = c at hstage
  cases hstage with
  | @inserted request uuid b row i hassign hcolumns =>
      -- neither the assignments nor the columns change the uuid and the name
      have hkey := (SameKey.columnsOf hcolumns).trans (.updateAuthorityInstance hassign)
      constructor
      · intro hserial r hr
        generalize s.rows ++ [{ row with id := some i }] = rows at hserial
        cases hserial with
        | create hname => exact fun heq => hname r hr (heq.trans hkey.name)
      · intro hname
        refine .create (fun r hr heq => hname r hr (heq.trans hkey.name.symm)) (fun r hr heq => ?_)
          (fun r hr heq => ?_) hassign hcolumns
        · exact hfresh r hr (heq.trans hkey.uuid.symm)
        · have hagree := hinv.agree r _ (.inl hr) (.inr ⟨p, hobject⟩)
          exact hfresh r hr (hagree.uuid (by rw [heq]; exact Option.some_ne_none i) heq)

/-- An update that has found its row does what its call does to the table. -/
lemma serial_updated (hinv : Inv s) (hc : Coherent cols calls s) (hp : s.procs p = .updated a) :
    Serial cols s.rows (calls p) (s.rows.map fun r => if r.id = a.id then a else r) := by
  have hstage := hc.stage_of hp rfl
  have hrow := @hc.locks.exists_locked _ p a hinv (by rw [hp]; rfl) (by rw [hp]; rfl)
  generalize calls p = c at hstage
  cases hstage with
  | updated hsaves =>
      obtain ⟨b, ⟨hid, a₀, rfl, hassign⟩, hcolumns⟩ := hsaves
      have hkeyb := SameKey.columnsOf hcolumns
      obtain ⟨r, hr, hkey⟩ := hrow (hkeyb.id ▸ hid)
      -- the row may have been updated since it was loaded
      have hsame : SameKey r a₀ := (hkey.trans hkeyb).trans (.updateAuthorityInstance hassign)
      have hkind : r.kind = a₀.kind := (hc.kind r hr).trans (kind_of_update hassign).2.symm
      rw [← hsame.uuid, ← hkey.id]
      exact .update hr (update_congr hsame hkind hassign) hcolumns

/-- A DELETE that has found its row does what its call does to the table. -/
lemma serial_deleted (hinv : Inv s) (hc : Coherent cols calls s) (hp : s.procs p = .deleted a) :
    Serial cols s.rows (calls p) (s.rows.filter fun r => r.id ≠ a.id) := by
  have hstage := hc.stage_of hp rfl
  have hrow := @hc.locks.exists_locked _ p a hinv (by rw [hp]; rfl) (by rw [hp]; rfl)
  generalize calls p = c at hstage
  cases hstage with
  | deleted hid =>
      obtain ⟨r, hr, hkey⟩ := hrow hid
      rw [← hkey.uuid, ← hkey.id]
      exact .delete hr

/-- No update adds a row. -/
lemma not_serial_reinserted (hc : Coherent cols calls s) (hp : s.procs p = .reinserted a) :
    ¬ Serial cols s.rows (calls p) (s.rows ++ [a]) := by
  have hstage := hc.stage_of hp rfl
  generalize calls p = c at hstage
  cases hstage with
  | reinserted hassigned =>
      intro hserial
      generalize hrows : s.rows ++ [a] = rows at hserial
      cases hserial with
      | update ha hassign => simpa using congrArg List.length hrows

/-- A commit does what the call of its request does to the table it finds, when and only
when it is orderly. -/
lemma serial_iff_orderly (hinv : Inv s) (hc : Coherent cols calls s) (h : Step cols s (p, e) s')
    (he : e.changesTable = true) : Serial cols s.rows (calls p) s'.rows ↔ e.Orderly s.rows := by
  have hby := h.by_self
  rw [h.rows_eq]
  cases e with
  | created a => exact serial_created_iff hinv hc hby
  | updated a => exact iff_of_true (serial_updated hinv hc hby) trivial
  | reinserted a => exact iff_of_false (not_serial_reinserted hc hby) id
  | deleted a => exact iff_of_true (serial_deleted hinv hc hby) trivial
  | _ => cases he

end Commits

/-! ### Along a run -/

/-- The request that has changed the table. -/
def committer (x : Pid × Event) : Option Pid := if x.2.changesTable then some x.1 else none

/-- The table does not change without a commit. -/
lemma Event.commit_of_not {rows : List AuthorityInstance} (he : e.changesTable = false) :
    e.commit rows = rows := by
  cases e <;> first | rfl | cases he

/-- A request that has committed is over. -/
lemma Step.ended_of_commits (h : Step cols s (p, e) s') (he : e.changesTable = true) :
    s'.procs p = .ended := by
  cases h <;> first | exact State.set_procs_self .. | cases he

/-- The requests that have committed are over, and have committed once. -/
lemma committers_of_runs (hr : Runs cols s₀ tr s) :
    (tr.filterMap committer).Nodup ∧ ∀ p ∈ tr.filterMap committer, s.procs p = .ended := by
  induction hr with
  | refl => exact ⟨List.nodup_nil, fun p hp => by cases hp⟩
  | @tail tr x t t' hr hst ih =>
      obtain ⟨p, e⟩ := x
      have hothers : ∀ q ∈ tr.filterMap committer, q ≠ p ∧ t'.procs q = .ended := by
        intro q hq
        have hne : q ≠ p := fun heq => hst.not_ended (heq ▸ ih.2 q hq)
        exact ⟨hne, (hst.procs_of_ne hne).trans (ih.2 q hq)⟩
      rw [List.filterMap_append, List.filterMap_cons, List.filterMap_nil, committer]
      cases he : e.changesTable with
      | false =>
          simp only [Bool.false_eq_true, if_false, List.append_nil]
          exact ⟨ih.1, fun q hq => (hothers q hq).2⟩
      | true =>
          simp only [if_true]
          refine ⟨List.nodup_append.mpr ⟨ih.1, List.nodup_singleton p, ?_⟩, fun q hq => ?_⟩
          · rintro q hq _ hp rfl
            exact (hothers q hq).1 (List.mem_singleton.mp hp)
          · rcases List.mem_append.mp hq with hq | hq
            · exact (hothers q hq).2
            · rw [List.mem_singleton.mp hq]
              exact hst.ended_of_commits he

/-- The steps of the requests of these calls. -/
abbrev Made (cols : Columns) (calls : Pid → Call) : State → Pid × Event → State → Prop :=
  Restricted (Step cols) fun _ _ s' => s'.Requested calls

/-- The steps among them whose commits are orderly. -/
abbrev OrderlyMade (cols : Columns) (calls : Pid → Call) :
    State → Pid × Event → State → Prop :=
  Restricted (Made cols calls) fun s x _ => x.2.Orderly s.rows

/-- **One after the other.** However the requests overlap, as long as no create commits a
name that is there and no update inserts its row anew, the table is what the requests that
have committed make of it one after the other, in the order of their commits, each once;
and the next commit, too, does what its call does to the table it finds exactly when it is
such a one. -/
theorem serial_of_runs (h₀ : Initial s₀) (hkind : ∀ r ∈ s₀.rows, r.kind = "PyADCS-WinRM")
    {calls : Pid → Call} (hr : Run (OrderlyMade cols calls) s₀ tr s) :
    Run (fun rows p rows' => Serial cols rows (calls p) rows') s₀.rows (tr.filterMap committer)
        s.rows ∧
      (tr.filterMap committer).Nodup ∧
      ∀ p e s', Made cols calls s (p, e) s' → e.changesTable = true →
        (Serial cols s.rows (calls p) s'.rows ↔ e.Orderly s.rows) := by
  have hstep : ∀ a x b, Inv a ∧ Coherent cols calls a → OrderlyMade cols calls a x b →
      Inv b ∧ Coherent cols calls b := fun a x b hi hst =>
    ⟨hi.1.step hst.1.1, hi.2.step hi.1 hst.1.1 hst.1.2⟩
  have hinit : Inv s₀ ∧ Coherent cols calls s₀ := ⟨h₀.inv, h₀.coherent hkind calls⟩
  have hend := hr.invariant hstep hinit
  refine ⟨hr.refines (α := State.rows) hstep (fun a x b hi hst => ?_) hinit, ?_, ?_⟩
  · obtain ⟨p, e⟩ := x
    rw [committer]
    cases he : e.changesTable with
    | false => exact .inl ⟨rfl, by rw [hst.1.1.rows_eq, Event.commit_of_not he]⟩
    | true => exact .inr ⟨p, rfl, (serial_iff_orderly hi.1 hi.2 hst.1.1 he).mpr hst.2⟩
  · exact (committers_of_runs (hr.mono fun _ _ _ h => h.1.1)).1
  · exact fun p e s' hst he => serial_iff_orderly hend.1 hend.2 hst.1 he

/-! ### A create within an update -/

/-- Only a request that is made is at its beginning. -/
lemma Step.not_begun (h : Step cols s (p, e) s') (hp : s.procs p ≠ .idle) (call : Call) :
    s'.procs p ≠ call.begun := by
  intro hcall
  cases h with
  | createBegin | updateBegin | deleteBegin => contradiction
  | _ => cases call <;> simp_all [Call.begun]

/-- A request that has been made goes on. -/
lemma Run.tail_made {calls : Pid → Call} {s₁ : State}
    (hr : Run (OrderlyMade cols calls) s₀ tr s ∧ s.Requested calls) (h : Step cols s (p, e) s₁)
    (hp : s.procs p ≠ .idle) (he : e.Orderly s.rows) :
    Run (OrderlyMade cols calls) s₀ (tr ++ [(p, e)]) s₁ ∧ s₁.Requested calls := by
  have hrequested : s₁.Requested calls := by
    intro q call hq
    by_cases hqp : q = p
    · exact absurd (hqp ▸ hq) (h.not_begun hp call)
    · exact hr.2 q call (h.procs_of_ne hqp ▸ hq)
  exact ⟨hr.1.tail ⟨⟨h, hrequested⟩, he⟩, hrequested⟩

/-- A request is made. -/
lemma Run.tail_begun {calls : Pid → Call}
    (hr : Run (OrderlyMade cols calls) s₀ tr s ∧ s.Requested calls)
    (h : Step cols s (p, e) (s.set p (calls p).begun)) (he : e.Orderly s.rows) :
    Run (OrderlyMade cols calls) s₀ (tr ++ [(p, e)]) (s.set p (calls p).begun) ∧
      (s.set p (calls p).begun).Requested calls := by
  have hrequested : (s.set p (calls p).begun).Requested calls := by
    intro q call hq
    by_cases hqp : q = p
    · rw [hqp, State.set_procs_self] at hq
      rw [hqp]
      cases hcall : calls p <;> rw [hcall] at hq <;> cases call <;> simp_all [Call.begun]
    · rw [State.set_procs_of_ne _ _ hqp] at hq
      exact hr.2 q call hq
  exact ⟨hr.1.tail ⟨⟨h, hrequested⟩, he⟩, hrequested⟩

/-- A request for an instance of another name. -/
def sampleCreate : AuthorityRequest := { sampleRequest with name := "ADCS 2" }

/-- The row that is created for it. -/
def sampleCreated : AuthorityInstance :=
  { sampleUpdated with id := some 2, uuid := 8, name := "ADCS 2" }

lemma updateAuthorityInstance_create :
    updateAuthorityInstance sampleCreate (newInstance 8 sampleCreate) =
      .ok { sampleCreated with id := none } := rfl

lemma columnsOf_create : columnsOf sampleColumns { sampleCreated with id := none } =
    .ok { sampleCreated with id := none } :=
  columnsOf_sample_key none 8 (show "ADCS 2".length ≤ 255 by decide)

/-- An update of the row of the table, and a create. -/
def sampleCalls (p : Pid) : Call :=
  if p = 0 then .update 7 sampleRequest else .create sampleCreate

/-- The sample update, which the create overlaps: it has read its row before the create
begins, and commits after it. -/
theorem serial_of_runs_sample :
    Run (fun rows p rows' => Serial sampleColumns rows (sampleCalls p) rows')
      [sampleInstance] [1, 0] [sampleUpdated, sampleCreated] := by
  have h : Run (OrderlyMade sampleColumns sampleCalls) oneRow [] oneRow ∧
      oneRow.Requested sampleCalls := ⟨.refl, fun p call h => by cases call <;> cases h⟩
  -- the update has read its row when the create begins
  have h := Run.tail_begun (p := 0) h (.updateBegin 7 sampleRequest rfl) trivial
  have h := Run.tail_made (p := 0) h (.updateGet sampleInstance rfl List.mem_cons_self rfl) nofun
    trivial
  have h := Run.tail_begun (p := 1) h (.createBegin sampleCreate rfl) trivial
  have h := Run.tail_made (p := 1) h (.createCheck 8 rfl (by decide) (by decide)) nofun trivial
  have h := Run.tail_made (p := 0) h (.assign rfl updateAuthorityInstance_sample) nofun trivial
  have h := Run.tail_made (p := 0) h (.verify rfl rfl) nofun trivial
  -- the update has locked its row when the create inserts its own
  have h := Run.tail_made (p := 0) h (.saveUpdate rfl nofun columnsOf_sample
    ⟨sampleInstance, List.mem_cons_self, rfl⟩ fun q hq => by
      by_cases hq1 : q = 1
      · rw [hq1]
        exact nofun
      · simp only [State.set_procs_of_ne _ _ hq1, State.set_procs_of_ne _ _ hq]
        exact nofun) nofun trivial
  have h := Run.tail_made (p := 1) h (.assign rfl updateAuthorityInstance_create) nofun trivial
  have h := Run.tail_made (p := 1) h (.verify rfl rfl) nofun trivial
  have h := Run.tail_made (p := 1) h (.saveNew rfl rfl columnsOf_create) nofun trivial
  have h := Run.tail_made (p := 1) h (.createCommit rfl) nofun
    (List.forall_mem_singleton.mpr (by decide))
  have h := Run.tail_made (p := 0) h (.updateCommit rfl) nofun trivial
  exact (serial_of_runs oneRow_initial (List.forall_mem_singleton.mpr rfl) h.1).1

end Authority

end AdcsConnector
