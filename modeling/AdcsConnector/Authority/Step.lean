/-
The requests on authority instances as their table sees them:
`views/authority_instance.py`, every request in one transaction, PostgreSQL at
READ COMMITTED.

* `Proc`: where a create, an update or a DELETE request stands between two
  statements, with the object it has at hand;
* `State`: the committed rows, the id sequence, the uuids drawn and the requests;
* `Step`: one statement of one request. `Model.save` writes what the columns make
  of the fields; on an object with an id it is an UPDATE by primary key and, when
  that has matched no row, an INSERT of the whole row;
* `Step.change`, `Event.mem_commit`: what a step does to the object of its
  request, and to the rows.
-/
import AdcsConnector.Authority.Instance
import AdcsConnector.Library.Runs

namespace AdcsConnector

namespace Authority

/-! ### Requests -/

/-- Where a request stands. -/
inductive Proc where
  /-- nothing requested yet -/
  | idle
  /-- POST without a uuid: the transaction is open -/
  | createBegun (request : AuthorityRequest)
  /-- POST with a uuid: the transaction is open -/
  | updateBegun (uuid : UUID) (request : AuthorityRequest)
  /-- `update_authority_instance` is called, with a new or a loaded object -/
  | updating (authorityInstance : AuthorityInstance) (request : AuthorityRequest)
  /-- the fields are assigned; `verify_connection` is running -/
  | verifying (authorityInstance : AuthorityInstance)
  /-- the connection is verified -/
  | verified (authorityInstance : AuthorityInstance)
  /-- `save`: the UPDATE has matched no row; from here on with what the columns write -/
  | missed (authorityInstance : AuthorityInstance)
  /-- `save`: the row of a new object is inserted -/
  | inserted (authorityInstance : AuthorityInstance)
  /-- `save`: the row is updated -/
  | updated (authorityInstance : AuthorityInstance)
  /-- `save`: the whole row is inserted under the id it had -/
  | reinserted (authorityInstance : AuthorityInstance)
  /-- DELETE: the transaction is open -/
  | deleteBegun (uuid : UUID)
  /-- the object is loaded -/
  | deleting (authorityInstance : AuthorityInstance)
  /-- the row is deleted -/
  | deleted (authorityInstance : AuthorityInstance)
  /-- the DELETE has matched no row -/
  | deleteMissed (authorityInstance : AuthorityInstance)
  /-- answered, with nothing left open -/
  | ended

namespace Proc

/-- The object a request has at hand. -/
def object : Proc → Option AuthorityInstance
  | updating a _ | verifying a | verified a | missed a | inserted a | updated a | reinserted a
  | deleting a | deleted a | deleteMissed a => some a
  | _ => none

/-- The object that a create has made. -/
def creating : Proc → Option AuthorityInstance
  | updating a _ | verifying a | verified a => if a.id = none then some a else none
  | inserted a => some a
  | _ => none

/-- The row inserted and not committed. -/
def pending : Proc → Option AuthorityInstance
  | inserted a | reinserted a => some a
  | _ => none

/-- The id of the row locked. -/
def row : Proc → Option ℕ
  | updated a | deleted a => a.id
  | _ => none

/-- A request that has been made and not answered. -/
def active : Proc → Bool
  | idle | ended => false
  | _ => true

lemma object_of_creating {x : Proc} {a : AuthorityInstance} (h : x.creating = some a) :
    x.object = some a := by
  cases x <;> simp_all [creating, object]

lemma object_of_pending {x : Proc} {a : AuthorityInstance} (h : x.pending = some a) :
    x.object = some a := by
  cases x <;> simp_all [pending, object]

end Proc

/-! ### States -/

/-- The name of a request. -/
abbrev Pid := ℕ

/-- The committed table, the sequence and the uuids drawn, neither of which is
transactional, and the requests. -/
structure State where
  rows : List AuthorityInstance
  seq : ℕ
  uuids : List UUID
  procs : Pid → Proc

namespace State

/-- The state with one request moved on. -/
def set (s : State) (p : Pid) (x : Proc) : State := { s with procs := Function.update s.procs p x }

variable (s : State) (p : Pid) (x : Proc)

@[simp] lemma set_rows : (s.set p x).rows = s.rows := rfl
@[simp] lemma set_seq : (s.set p x).seq = s.seq := rfl
@[simp] lemma set_uuids : (s.set p x).uuids = s.uuids := rfl
@[simp] lemma set_procs_self : (s.set p x).procs p = x := Function.update_self ..
lemma set_procs_of_ne {p q : Pid} (h : q ≠ p) : (s.set p x).procs q = s.procs q :=
  Function.update_of_ne h ..

@[simp] lemma set_set (y : Proc) : (s.set p x).set p y = s.set p y := by
  simp only [set, Function.update_idem]

/-- No other request has locked the row of an id. -/
def RowFree (id : Option ℕ) : Prop := ∀ q, q ≠ p → (s.procs q).row ≠ id

/-- No other request has an uncommitted entry of an id in the primary key. -/
def KeyFree (id : Option ℕ) : Prop :=
  ∀ q, q ≠ p → ∀ a, (s.procs q).pending = some a → a.id ≠ id

end State

/-! ### Steps -/

/-- What a step does that others can observe. -/
inductive Event where
  /-- a statement inside a transaction, or the call of `verify_connection` -/
  | statement
  /-- an update read its row -/
  | loaded (row : AuthorityInstance)
  /-- a create committed its row -/
  | created (row : AuthorityInstance)
  /-- an update committed its row -/
  | updated (row : AuthorityInstance)
  /-- an update committed a row that it has inserted -/
  | reinserted (row : AuthorityInstance)
  /-- a DELETE of a row committed -/
  | deleted (row : AuthorityInstance)
  /-- a DELETE that has matched no row committed -/
  | deletedNothing (row : AuthorityInstance)
  /-- the request failed, its transaction rolled back -/
  | crashed

/-- What the event does to the rows. -/
def Event.commit : Event → List AuthorityInstance → List AuthorityInstance
  | created row, rows | reinserted row, rows => rows ++ [row]
  | updated row, rows => rows.map fun r => if r.id = row.id then row else r
  | deleted row, rows => rows.filter fun r => r.id ≠ row.id
  | _, rows => rows

/-- One step of one request. -/
inductive Step (c : Columns) : State → Pid × Event → State → Prop
  -- create_authority_instance
  | createBegin {s p} (request : AuthorityRequest) (h : s.procs p = .idle) :
      Step c s (p, .statement) (s.set p (.createBegun request))
  | createCheck {s p request} (uuid : UUID) (h : s.procs p = .createBegun request)
      (hname : ∀ r ∈ s.rows, r.name ≠ request.name) (hfresh : uuid ∉ s.uuids) :
      Step c s (p, .statement)
        (State.set { s with uuids := uuid :: s.uuids } p
          (.updating (newInstance uuid request) request))
  | createRefuse {s p request} (h : s.procs p = .createBegun request)
      (hname : ∃ r ∈ s.rows, r.name = request.name) :
      Step c s (p, .statement) (s.set p .ended)
  -- POST on a uuid
  | updateBegin {s p} (uuid : UUID) (request : AuthorityRequest) (h : s.procs p = .idle) :
      Step c s (p, .statement) (s.set p (.updateBegun uuid request))
  | updateGet {s p uuid request} (a : AuthorityInstance)
      (h : s.procs p = .updateBegun uuid request) (ha : a ∈ s.rows) (huuid : a.uuid = uuid) :
      Step c s (p, .loaded a) (s.set p (.updating a request))
  | updateMissing {s p uuid request} (h : s.procs p = .updateBegun uuid request)
      (hrow : ∀ r ∈ s.rows, r.uuid ≠ uuid) :
      Step c s (p, .statement) (s.set p .ended)
  -- update_authority_instance
  | assign {s p a b request} (h : s.procs p = .updating a request)
      (hassign : updateAuthorityInstance request a = .ok b) :
      Step c s (p, .statement) (s.set p (.verifying b))
  | assignRaise {s p a request e} (h : s.procs p = .updating a request)
      (hassign : updateAuthorityInstance request a = .error e) :
      Step c s (p, .statement) (s.set p .ended)
  | verify {s p a} (h : s.procs p = .verifying a) (htransport : a.transport = .str "credssp") :
      Step c s (p, .statement) (s.set p (.verified a))
  -- save
  | saveRaise {s p a e} (h : s.procs p = .verified a) (hcolumns : columnsOf c a = .error e) :
      Step c s (p, .statement) (s.set p .ended)
  | saveNew {s p a row} (h : s.procs p = .verified a) (hid : a.id = none)
      (hcolumns : columnsOf c a = .ok row) :
      Step c s (p, .statement)
        (State.set { s with seq := s.seq + 1 } p (.inserted { row with id := some s.seq }))
  | saveUpdate {s p a row} (h : s.procs p = .verified a) (hid : a.id ≠ none)
      (hcolumns : columnsOf c a = .ok row) (hrow : ∃ r ∈ s.rows, r.id = a.id)
      (hfree : s.RowFree p a.id) :
      Step c s (p, .statement) (s.set p (.updated row))
  | saveMiss {s p a row} (h : s.procs p = .verified a) (hid : a.id ≠ none)
      (hcolumns : columnsOf c a = .ok row) (hrow : ∀ r ∈ s.rows, r.id ≠ a.id) :
      Step c s (p, .statement) (s.set p (.missed row))
  | saveInsert {s p a} (h : s.procs p = .missed a) (hrow : ∀ r ∈ s.rows, r.id ≠ a.id)
      (hfree : s.KeyFree p a.id) :
      Step c s (p, .statement) (s.set p (.reinserted a))
  | saveConflict {s p a} (h : s.procs p = .missed a) (hrow : ∃ r ∈ s.rows, r.id = a.id) :
      Step c s (p, .statement) (s.set p .ended)
  | createCommit {s p a} (h : s.procs p = .inserted a) :
      Step c s (p, .created a) (State.set { s with rows := s.rows ++ [a] } p .ended)
  | updateCommit {s p a} (h : s.procs p = .updated a) :
      Step c s (p, .updated a)
        (State.set { s with rows := s.rows.map fun r => if r.id = a.id then a else r } p .ended)
  | reinsertCommit {s p a} (h : s.procs p = .reinserted a) :
      Step c s (p, .reinserted a) (State.set { s with rows := s.rows ++ [a] } p .ended)
  -- DELETE
  | deleteBegin {s p} (uuid : UUID) (h : s.procs p = .idle) :
      Step c s (p, .statement) (s.set p (.deleteBegun uuid))
  | deleteGet {s p uuid} (a : AuthorityInstance) (h : s.procs p = .deleteBegun uuid)
      (ha : a ∈ s.rows) (huuid : a.uuid = uuid) :
      Step c s (p, .statement) (s.set p (.deleting a))
  | deleteMissing {s p uuid} (h : s.procs p = .deleteBegun uuid)
      (hrow : ∀ r ∈ s.rows, r.uuid ≠ uuid) :
      Step c s (p, .statement) (s.set p .ended)
  | deleteRow {s p a} (h : s.procs p = .deleting a) (hrow : ∃ r ∈ s.rows, r.id = a.id)
      (hfree : s.RowFree p a.id) :
      Step c s (p, .statement) (s.set p (.deleted a))
  | deleteMiss {s p a} (h : s.procs p = .deleting a) (hrow : ∀ r ∈ s.rows, r.id ≠ a.id) :
      Step c s (p, .statement) (s.set p (.deleteMissed a))
  | deleteCommit {s p a} (h : s.procs p = .deleted a) :
      Step c s (p, .deleted a)
        (State.set { s with rows := s.rows.filter fun r => r.id ≠ a.id } p .ended)
  | deleteMissCommit {s p a} (h : s.procs p = .deleteMissed a) :
      Step c s (p, .deletedNothing a) (s.set p .ended)
  -- any request
  | crash {s p} (h : (s.procs p).active) :
      Step c s (p, .crashed) (s.set p .ended)

/-- A run of the requests, with the steps taken. -/
abbrev Runs (c : Columns) := Run (Step c)

/-- The request that commits, for each commit. -/
def Event.By (x : Proc) : Event → Prop
  | created a => x = .inserted a
  | updated a => x = .updated a
  | reinserted a => x = .reinserted a
  | deleted a => x = .deleted a
  | deletedNothing a => x = .deleteMissed a
  | _ => True

/-- A row after a commit is a row of before, or the one committed. -/
lemma Event.mem_commit {e : Event} {rows : List AuthorityInstance} {r : AuthorityInstance}
    (h : r ∈ e.commit rows) :
    r ∈ rows ∨ e = .created r ∨ e = .reinserted r ∨
      e = .updated r ∧ ∃ r₀ ∈ rows, r₀.id = r.id := by
  cases e with
  | created row =>
      exact (List.mem_append.mp h).imp_right fun h => .inl (by rw [List.mem_singleton.mp h])
  | reinserted row =>
      exact (List.mem_append.mp h).imp_right fun h =>
        .inr (.inl (by rw [List.mem_singleton.mp h]))
  | updated row =>
      obtain ⟨r₀, hr₀, rfl⟩ := List.mem_map.mp h
      split_ifs with hid
      · exact .inr (.inr (.inr ⟨rfl, r₀, hr₀, hid⟩))
      · exact .inl hr₀
  | deleted row => exact .inl (List.mem_of_mem_filter h)
  | _ => exact .inl h

namespace Step

variable {c : Columns} {s s' : State} {p q : Pid} {e : Event}

/-- A step moves one request. -/
lemma procs_of_ne (h : Step c s (p, e) s') (hq : q ≠ p) : s'.procs q = s.procs q := by
  cases h <;> exact State.set_procs_of_ne _ _ hq

/-- The rows change by the event. -/
lemma rows_eq (h : Step c s (p, e) s') : s'.rows = e.commit s.rows := by
  cases h <;> rfl

/-- The uuids drawn stay drawn. -/
lemma uuids_subset (h : Step c s (p, e) s') : s.uuids ⊆ s'.uuids := by
  cases h <;> simp

lemma by_self (h : Step c s (p, e) s') : e.By (s.procs p) := by
  cases h <;> first | assumption | trivial

/-- A step leaves the object of its request as it was, up to the fields of an
update and what the columns make of them, or loads it from the rows; or it makes a
new object, or gives the new object its id. -/
lemma change (h : Step c s (p, e) s') :
    (s'.uuids = s.uuids ∧ s'.seq = s.seq ∧ ∀ b, (s'.procs p).object = some b →
        b ∈ s.rows ∨ ∃ a, (s.procs p).object = some a ∧ SameKey b a) ∨
      (∃ uuid request, uuid ∉ s.uuids ∧ (∀ r ∈ s.rows, r.name ≠ request.name) ∧
        s' = State.set { s with uuids := uuid :: s.uuids } p
          (.updating (newInstance uuid request) request)) ∨
      ∃ a row, (s.procs p).creating = some a ∧ a.id = none ∧ SameKey row a ∧
        s' = State.set { s with seq := s.seq + 1 } p (.inserted { row with id := some s.seq }) := by
  cases h with
  | @createCheck p request uuid h hname hfresh =>
      exact .inr (.inl ⟨uuid, request, hfresh, hname, rfl⟩)
  | @saveNew p a row h hid hcolumns =>
      exact .inr (.inr
        ⟨a, row, by rw [h, Proc.creating, if_pos hid], hid, .columnsOf hcolumns, rfl⟩)
  | @assign p a b request h hassign =>
      refine .inl ⟨rfl, rfl, fun c hc => .inr ⟨a, by rw [h]; rfl, ?_⟩⟩
      rw [State.set_procs_self] at hc
      cases hc
      exact .updateAuthorityInstance hassign
  | @saveUpdate p a row h hid hcolumns =>
      refine .inl ⟨rfl, rfl, fun c hc => .inr ⟨a, by rw [h]; rfl, ?_⟩⟩
      rw [State.set_procs_self] at hc
      cases hc
      exact .columnsOf hcolumns
  | @saveMiss p a row h hid hcolumns =>
      refine .inl ⟨rfl, rfl, fun c hc => .inr ⟨a, by rw [h]; rfl, ?_⟩⟩
      rw [State.set_procs_self] at hc
      cases hc
      exact .columnsOf hcolumns
  | updateGet a h ha huuid =>
      refine .inl ⟨rfl, rfl, fun c hc => .inl ?_⟩
      rw [State.set_procs_self] at hc
      cases hc
      exact ha
  | deleteGet a h ha huuid =>
      refine .inl ⟨rfl, rfl, fun c hc => .inl ?_⟩
      rw [State.set_procs_self] at hc
      cases hc
      exact ha
  | _ =>
      refine .inl ⟨rfl, rfl, fun c hc => .inr ⟨c, ?_, .refl c⟩⟩
      simp_all [Proc.object]

/-- A create is under way when it was before, or when its object is new. -/
lemma creating_cases (h : Step c s (p, e) s') (hid : ∀ r ∈ s.rows, r.id ≠ none)
    {b : AuthorityInstance} (hb : (s'.procs p).creating = some b) :
    (∃ a, (s.procs p).creating = some a ∧ a.uuid = b.uuid) ∨ b.uuid ∉ s.uuids := by
  cases h with
  | @createCheck p request uuid h hname hfresh =>
      rw [State.set_procs_self] at hb
      cases hb
      exact .inr hfresh
  | @saveNew p a row h hid hcolumns =>
      rw [State.set_procs_self] at hb
      cases hb
      exact .inl ⟨a, by rw [h, Proc.creating, if_pos hid], (SameKey.columnsOf hcolumns).uuid.symm⟩
  | @assign p a c request h hassign =>
      have hkey := SameKey.updateAuthorityInstance hassign
      rw [State.set_procs_self, Proc.creating] at hb
      split_ifs at hb with hnone
      cases hb
      exact .inl ⟨a, by rw [h, Proc.creating, if_pos (hkey.id.symm.trans hnone)], hkey.uuid.symm⟩
  | updateGet a h ha huuid =>
      rw [State.set_procs_self, Proc.creating, if_neg (hid a ha)] at hb
      cases hb
  | @verify p a h htransport =>
      rw [State.set_procs_self] at hb
      exact .inl ⟨b, by rw [h]; exact hb, rfl⟩
  | _ => simp [Proc.creating] at hb

/-- A request that has committed a row is over. -/
lemma creating_of_commit (h : Step c s (p, e) s') {a : AuthorityInstance}
    (he : e = .created a ∨ e = .reinserted a) : (s'.procs p).creating = none := by
  rcases he with rfl | rfl <;> cases h <;> rw [State.set_procs_self] <;> rfl

/-- A request that is over does nothing. -/
lemma not_ended (h : Step c s (p, e) s') : s.procs p ≠ .ended := by
  intro hended
  cases h with
  | crash h =>
      rw [hended] at h
      cases h
  | _ => simp_all

end Step

end Authority

end AdcsConnector
