/-
Where the rows of the authority instances come from.

An update assigns its fields, verifies the connection with them and saves the whole
object, the connection and the save being far apart. Two requests on one instance
overlap as they like, and a row may be written by an UPDATE or by an INSERT; what is
written is what the columns make of the object.

* `OfRequest`: the fields of an instance as one request gives them;
* `Checked`: a point of a run at which a request has verified its object;
* `Stored`: a row written by a request for the object it had verified, and by no one since;
* `rows_verified_of_runs`: every row is one of the start, or `Stored`.
-/
import AdcsConnector.Authority.Deletion

namespace AdcsConnector

namespace Authority

variable {cols : Columns} {s s' s₀ : State} {p q : Pid} {e : Event} {tr : List (Pid × Event)}
  {a b r : AuthorityInstance} {request : AuthorityRequest}

/-! ### The fields of a request -/

/-- The fields of an instance that come from its request: the attributes merged, and the
columns read from them. The key and the name are not among them. -/
structure OfRequest (request : AuthorityRequest) (a : AuthorityInstance) : Prop where
  kind : a.kind = "PyADCS-WinRM"
  transport : a.transport = .str "credssp" ∧
    getAttributeValue "authority_winrm_transport" request.attributes = .str "credssp"
  attributes : ∃ names, getAllAuthorityAttributesList a.kind a.transport = .ok names ∧
    mergeAttributes request.attributes names = .ok a.attributes
  address : a.address = getAttributeValue "authority_server_address" a.attributes
  https : a.https = getAttributeValue "authority_use_https" a.attributes
  port : a.port = getAttributeValue "authority_winrm_port" a.attributes
  credential : a.credential = getAttributeValue "authority_credential" a.attributes

lemma getAllAuthorityAttributesList_transport {kind : String} {transport : Json}
    {names : List String} (h : getAllAuthorityAttributesList kind transport = .ok names) :
    kind = "PyADCS-WinRM" ∧ transport = .str "credssp" := by
  unfold getAllAuthorityAttributesList at h
  obtain ⟨_, hkind, h⟩ := Except.bind_eq_ok_iff.mp h
  constructor
  · rw [validateAuthorityKind] at hkind
    split_ifs at hkind with hk
    exact hk
  · split at h
    · rfl
    · cases h

/-- What an update assigns comes from its request. -/
lemma ofRequest_of_update (h : updateAuthorityInstance request a = .ok b) :
    OfRequest request b := by
  simp only [updateAuthorityInstance, Except.bind_eq_ok_iff] at h
  obtain ⟨_, -, names, hnames, attributes, hmerge, ⟨⟩⟩ := h
  obtain ⟨hkind, htransport⟩ := getAllAuthorityAttributesList_transport hnames
  exact ⟨hkind, ⟨htransport, htransport⟩, ⟨names, hnames, hmerge⟩, rfl, rfl, rfl, rfl⟩

/-! ### The points of a run -/

/-- After the trace `tr₁` request `p` verifies the connection of its object `b`, which has
its fields from `request`. -/
structure Checked (cols : Columns) (s₀ : State) (tr₁ : List (Pid × Event)) (p : Pid)
    (request : AuthorityRequest) (b : AuthorityInstance) : Prop where
  ofRequest : OfRequest request b
  verified : ∃ m m', Runs cols s₀ tr₁ m ∧ Step cols m (p, .statement) m' ∧
    m.procs p = .verifying b ∧ m'.procs p = .verified b

/-- The event puts a row in the table. -/
def Event.Puts (r : AuthorityInstance) (e : Event) : Prop :=
  e = .created r ∨ e = .updated r ∨ e = .reinserted r

/-- The event replaces or deletes the row of an id. -/
def Event.Overwrites (id : Option ℕ) : Event → Prop
  | updated row | deleted row => row.id = id
  | _ => False

/-- A row is what the columns write for an object, up to the id that the sequence has
given it; field by field it is the object where the fields have the types of their
columns. -/
structure Written (cols : Columns) (b r : AuthorityInstance) : Prop where
  columns : columnsOf cols b = .ok { r with id := b.id }
  own : OwnTypes b → r = { b with id := r.id }

lemma Written.of_columnsOf (h : columnsOf cols b = .ok { r with id := b.id }) :
    Written cols b r :=
  ⟨h, fun hown => by rw [← columnsOf_eq_self hown h]⟩

/-- A row that a request has put in the table for an object that it had verified, and
that no one has overwritten. -/
def Stored (cols : Columns) (s₀ : State) (tr : List (Pid × Event)) (r : AuthorityInstance) :
    Prop :=
  ∃ p request b tr₁ tr₂ e tr₃, tr = tr₁ ++ (p, .statement) :: (tr₂ ++ (p, e) :: tr₃) ∧
    Checked cols s₀ tr₁ p request b ∧ Written cols b r ∧ e.Puts r ∧
    ∀ x ∈ tr₃, ¬ x.2.Overwrites r.id

/-- A row after a commit has been put there by it, or has been there and is not
overwritten. -/
lemma Event.puts_or_kept {rows : List AuthorityInstance} (h : r ∈ e.commit rows) :
    e.Puts r ∨ r ∈ rows ∧ ¬ e.Overwrites r.id := by
  cases e with
  | created row =>
      rcases List.mem_append.mp h with h | h
      · exact .inr ⟨h, id⟩
      · exact .inl (.inl (by rw [List.mem_singleton.mp h]))
  | reinserted row =>
      rcases List.mem_append.mp h with h | h
      · exact .inr ⟨h, id⟩
      · exact .inl (.inr (.inr (by rw [List.mem_singleton.mp h])))
  | updated row =>
      obtain ⟨r₀, hr₀, rfl⟩ := List.mem_map.mp h
      split_ifs with hid
      · exact .inl (.inr (.inl rfl))
      · exact .inr ⟨hr₀, fun heq => hid heq.symm⟩
  | deleted row =>
      obtain ⟨hr, hne⟩ := List.mem_filter.mp h
      exact .inr ⟨hr, fun heq => (of_decide_eq_true hne) heq.symm⟩
  | _ => exact .inr ⟨h, id⟩

/-! ### The objects of the requests -/

/-- Request `p` has verified an object. -/
def HasChecked (cols : Columns) (s₀ : State) (tr : List (Pid × Event)) (p : Pid)
    (b : AuthorityInstance) : Prop :=
  ∃ request tr₁ tr₂, tr = tr₁ ++ (p, .statement) :: tr₂ ∧ Checked cols s₀ tr₁ p request b

lemma HasChecked.append (h : HasChecked cols s₀ tr p b) (e : Pid × Event) :
    HasChecked cols s₀ (tr ++ [e]) p b := by
  obtain ⟨request, tr₁, tr₂, rfl, hchecked⟩ := h
  exact ⟨request, tr₁, tr₂ ++ [e], by simp, hchecked⟩

/-- The object of a request has its fields; it has been verified when it is to be saved,
and a row that is being saved is what the columns write for it. -/
structure Accounts (cols : Columns) (s₀ : State) (tr : List (Pid × Event)) (p : Pid)
    (x : Proc) : Prop where
  verifying : ∀ b, x = .verifying b → ∃ request, OfRequest request b
  verified : ∀ b, x = .verified b → HasChecked cols s₀ tr p b
  saving : ∀ r, x.saving = some r → ∃ b, HasChecked cols s₀ tr p b ∧
    columnsOf cols b = .ok { r with id := b.id }

/-- What is known of a request stays known. -/
lemma Accounts.append {x : Proc} (h : Accounts cols s₀ tr p x) (e : Pid × Event) :
    Accounts cols s₀ (tr ++ [e]) p x where
  verifying := h.verifying
  verified b hb := (h.verified b hb).append e
  saving r hr := by
    obtain ⟨b, hchecked, hcolumns⟩ := h.saving r hr
    exact ⟨b, hchecked.append e, hcolumns⟩

/-- An object is about to be verified once its fields are assigned. -/
lemma Step.verifying_cases (h : Step cols s (p, e) s') (hb : s'.procs p = .verifying b) :
    ∃ request, OfRequest request b := by
  cases h with
  | @assign p a c request h hassign =>
      rw [State.set_procs_self] at hb
      cases hb
      exact ⟨request, ofRequest_of_update hassign⟩
  | _ => simp_all

/-- An object is verified as it is. -/
lemma Step.verified_cases (h : Step cols s (p, e) s') (hb : s'.procs p = .verified b) :
    e = .statement ∧ s.procs p = .verifying b := by
  cases h with
  | verify h htransport =>
      rw [State.set_procs_self] at hb
      cases hb
      exact ⟨rfl, h⟩
  | _ => simp_all

/-- A save begins with what the columns write for the object verified, and goes on with
it. -/
lemma Step.saving_cases (h : Step cols s (p, e) s') (hr : (s'.procs p).saving = some r) :
    (s.procs p).saving = some r ∨
      ∃ b, s.procs p = .verified b ∧ columnsOf cols b = .ok { r with id := b.id } := by
  cases h with
  | @saveNew p a row h hid hcolumns =>
      rw [State.set_procs_self] at hr
      cases hr
      refine .inr ⟨a, h, ?_⟩
      rw [hcolumns, ← (SameKey.columnsOf hcolumns).id]
  | @saveUpdate p a row h hid hcolumns | @saveMiss p a row h hid hcolumns =>
      rw [State.set_procs_self] at hr
      cases hr
      refine .inr ⟨a, h, ?_⟩
      rw [hcolumns, ← (SameKey.columnsOf hcolumns).id]
  | saveInsert h =>
      rw [State.set_procs_self] at hr
      exact .inl (by rw [h]; exact hr)
  | _ => simp_all [Proc.saving]

lemma Accounts.step (hr : Runs cols s₀ tr s) (h : Step cols s (p, e) s')
    (hacc : ∀ q, Accounts cols s₀ tr q (s.procs q)) (q : Pid) :
    Accounts cols s₀ (tr ++ [(p, e)]) q (s'.procs q) := by
  by_cases hq : q = p
  · subst hq
    refine ⟨fun b hb => h.verifying_cases hb, fun b hb => ?_, fun r hsaving => ?_⟩
    · obtain ⟨rfl, hx⟩ := h.verified_cases hb
      obtain ⟨request, hreq⟩ := (hacc q).verifying b hx
      exact ⟨request, tr, [], rfl, hreq, s, s', hr, h, hx, hb⟩
    · rcases h.saving_cases hsaving with hsaving | ⟨b, hx, hcolumns⟩
      · exact ((hacc q).append (q, e)).saving r hsaving
      · exact ⟨b, ((hacc q).verified b hx).append (q, e), hcolumns⟩
  · rw [h.procs_of_ne hq]
    exact (hacc q).append (p, e)

lemma accounts_of_runs (h₀ : Initial s₀) (hr : Runs cols s₀ tr s) :
    ∀ q, Accounts cols s₀ tr q (s.procs q) := by
  induction hr with
  | refl =>
      intro q
      rw [h₀.procs q]
      exact ⟨fun b hb => (by cases hb), fun b hb => (by cases hb), fun r hr => (by cases hr)⟩
  | tail hr hst ih => exact Accounts.step hr hst ih

/-! ### The rows of a run -/

/-- **Every row is what one request had verified.** In every run of creates, updates and
deletes, however they overlap, a row is one of the start that no one has overwritten, or
all its fields come from one request: they are what the columns write for the object
with which this request had verified the connection before it put the row in the table;
no one has overwritten it since. -/
theorem rows_verified_of_runs (h₀ : Initial s₀) (hr : Runs cols s₀ tr s) (hrow : r ∈ s.rows) :
    (r ∈ s₀.rows ∧ ∀ x ∈ tr, ¬ x.2.Overwrites r.id) ∨ Stored cols s₀ tr r := by
  induction hr with
  | refl => exact .inl ⟨hrow, fun x hx => by cases hx⟩
  | @tail tr e t t' hr hst ih =>
      obtain ⟨p, e⟩ := e
      rw [hst.rows_eq] at hrow
      rcases Event.puts_or_kept hrow with hputs | ⟨hkept, hnot⟩
      · -- the request that puts the row there has been saving it
        have hsaving : (t.procs p).saving = some r := by
          have hby := hst.by_self
          rcases hputs with rfl | rfl | rfl
          · rw [show t.procs p = .inserted r from hby]
            rfl
          · rw [show t.procs p = .updated r from hby]
            rfl
          · rw [show t.procs p = .reinserted r from hby]
            rfl
        obtain ⟨b, ⟨request, tr₁, tr₂, rfl, hb⟩, hcolumns⟩ :=
          (accounts_of_runs h₀ hr p).saving r hsaving
        exact .inr ⟨p, request, b, tr₁, tr₂, e, [], by simp, hb, .of_columnsOf hcolumns, hputs,
          fun x hx => by cases hx⟩
      · -- a row that stays has its history, to which this step adds nothing
        have hfree : ∀ {tr : List (Pid × Event)}, (∀ x ∈ tr, ¬ x.2.Overwrites r.id) →
            ∀ x ∈ tr ++ [(p, e)], ¬ x.2.Overwrites r.id := fun h =>
          List.forall_mem_append.mpr ⟨h, List.forall_mem_singleton.mpr hnot⟩
        rcases ih hkept with ⟨hstart, h⟩ |
          ⟨q, request, b, tr₁, tr₂, e', tr₃, rfl, hb, heq, hputs, h⟩
        · exact .inl ⟨hstart, hfree h⟩
        · exact .inr ⟨q, request, b, tr₁, tr₂, e', tr₃ ++ [(p, e)], by simp, hb, heq, hputs,
            hfree h⟩

/-- The sample update, once it is committed. -/
theorem rows_verified_sample : ∃ tr s, Runs sampleColumns oneRow tr s ∧ sampleUpdated ∈ s.rows ∧
    Stored sampleColumns oneRow tr sampleUpdated := by
  have h := @run_update sampleColumns oneRow 0 _ _ _ rfl List.mem_cons_self
    updateAuthorityInstance_sample rfl
  have h := h.tail (.saveUpdate (State.set_procs_self ..) (Option.some_ne_none 1) columnsOf_sample
    ⟨sampleInstance, List.mem_cons_self, rfl⟩ fun q hq => by
      rw [State.set_procs_of_ne _ _ hq]
      exact (Option.some_ne_none 1).symm)
  have h := h.tail (.updateCommit (State.set_procs_self ..))
  refine ⟨_, _, h, List.mem_cons_self, (rows_verified_of_runs oneRow_initial h
    List.mem_cons_self).resolve_left fun hstart => ?_⟩
  exact hstart.2 (0, .updated sampleUpdated) (by simp) rfl

end Authority

end AdcsConnector
