/-
What the rows and the objects of the requests have in common in every reachable
state.

* `State.Handle`: the rows and the objects that requests have at hand;
* `Agree`: two of them have one uuid exactly when they have one id;
* `Inv`: they agree, below the sequence and the uuids drawn, and a new object
  is known to its create only; it is kept by every step (`Inv.step`) and so
  holds along every run (`inv_of_runs`);
* `Locks`: a row that is locked is there, and locked by one request
  (`Locks.step`).
-/
import AdcsConnector.Authority.Step

namespace AdcsConnector

namespace Authority

variable {cols : Columns} {s s' s₀ : State} {p q : Pid} {e : Event} {tr : List (Pid × Event)}

/-! ### Handles -/

/-- A row, or an object of a request. -/
def State.Handle (s : State) (a : AuthorityInstance) : Prop :=
  a ∈ s.rows ∨ ∃ p, (s.procs p).object = some a

/-- Two objects that are of one row, or of different ones. -/
structure Agree (a b : AuthorityInstance) : Prop where
  key : a.uuid = b.uuid → a.id = b.id ∧ a.name = b.name
  uuid : a.id ≠ none → a.id = b.id → a.uuid = b.uuid

lemma Agree.refl (a : AuthorityInstance) : Agree a a := ⟨fun _ => ⟨rfl, rfl⟩, fun _ _ => rfl⟩

lemma Agree.symm {a b : AuthorityInstance} (h : Agree a b) : Agree b a where
  key heq := ⟨(h.key heq.symm).1.symm, (h.key heq.symm).2.symm⟩
  uuid hne heq := (h.uuid (heq ▸ hne) heq.symm).symm

/-- Whether two objects agree depends on their keys and names only. -/
lemma Agree.congr {a a' b b' : AuthorityInstance} (h : Agree a b) (ha : SameKey a' a)
    (hb : SameKey b' b) : Agree a' b' where
  key heq := by
    rw [ha.uuid, hb.uuid] at heq
    rw [ha.id, hb.id, ha.name, hb.name]
    exact h.key heq
  uuid hne heq := by
    rw [ha.id] at hne
    rw [ha.id, hb.id] at heq
    rw [ha.uuid, hb.uuid]
    exact h.uuid hne heq

/-- Objects of different uuids and different ids agree. -/
lemma Agree.of_ne {a b : AuthorityInstance} (huuid : a.uuid ≠ b.uuid)
    (hid : a.id ≠ none → a.id ≠ b.id) : Agree a b :=
  ⟨fun heq => absurd heq huuid, fun hne heq => absurd heq (hid hne)⟩

/-! ### The invariant -/

/-- The object of a `save` that has written a row, or is about to insert one. -/
def Proc.saving : Proc → Option AuthorityInstance
  | missed a | inserted a | updated a | reinserted a => some a
  | _ => none

lemma Proc.saving_of_pending {x : Proc} {a : AuthorityInstance} (h : x.pending = some a) :
    x.saving = some a := by
  cases x <;> simp_all [pending, saving]

/-- The invariant of the system. -/
structure Inv (s : State) : Prop where
  rowsId : ∀ r ∈ s.rows, r.id ≠ none
  savingId : ∀ p a, (s.procs p).saving = some a → a.id ≠ none
  bound : ∀ a, s.Handle a → a.uuid ∈ s.uuids ∧ ∀ i, a.id = some i → i < s.seq
  agree : ∀ a b, s.Handle a → s.Handle b → Agree a b
  fresh : ∀ p a, (s.procs p).creating = some a → (∀ r ∈ s.rows, r.uuid ≠ a.uuid) ∧
    ∀ q b, q ≠ p → (s.procs q).object = some b → b.uuid ≠ a.uuid

/-- A state to start from: rows with their own ids and uuids, and no request
made. -/
structure Initial (s : State) : Prop where
  rowsId : ∀ r ∈ s.rows, ∃ i < s.seq, r.id = some i
  rowsUuid : ∀ r ∈ s.rows, r.uuid ∈ s.uuids
  id : (s.rows.map (·.id)).Nodup
  uuid : (s.rows.map (·.uuid)).Nodup
  procs : ∀ p, s.procs p = .idle

/-- The invariant holds at the start. -/
lemma Initial.inv (h : Initial s) : Inv s := by
  have hrow : ∀ a, s.Handle a → a ∈ s.rows := by
    rintro a (ha | ⟨p, hp⟩)
    · exact ha
    · rw [h.procs p] at hp
      cases hp
  refine ⟨?_, ?_, ?_, ?_, ?_⟩
  · intro r hr
    obtain ⟨i, -, hi⟩ := h.rowsId r hr
    rw [hi]
    exact Option.some_ne_none i
  · intro p a hp
    rw [h.procs p] at hp
    cases hp
  · intro a ha
    obtain ⟨i, hlt, hi⟩ := h.rowsId a (hrow a ha)
    refine ⟨h.rowsUuid a (hrow a ha), fun j hj => ?_⟩
    rw [hi] at hj
    cases hj
    exact hlt
  · intro a b ha hb
    constructor
    · intro heq
      obtain rfl := List.inj_on_of_nodup_map h.uuid (hrow a ha) (hrow b hb) heq
      exact ⟨rfl, rfl⟩
    · intro _ heq
      obtain rfl := List.inj_on_of_nodup_map h.id (hrow a ha) (hrow b hb) heq
      rfl
  · intro p a hp
    rw [h.procs p] at hp
    cases hp

namespace Inv

lemma handle_row {r : AuthorityInstance} (hr : r ∈ s.rows) : s.Handle r := .inl hr

lemma handle_object {a : AuthorityInstance} (ha : (s.procs p).object = some a) : s.Handle a :=
  .inr ⟨p, ha⟩

/-- A row after a step is one of before, up to the fields of an update, or has
been inserted by the request. -/
lemma row_cases (hinv : Inv s) (h : Step cols s (p, e) s') {r : AuthorityInstance}
    (hr : r ∈ s'.rows) :
    (∃ r₀ ∈ s.rows, SameKey r r₀) ∨
      (s.procs p).pending = some r ∧ (e = .created r ∨ e = .reinserted r) := by
  have hby := h.by_self
  rw [h.rows_eq] at hr
  rcases Event.mem_commit hr with hr | rfl | rfl | ⟨rfl, r₀, hr₀, hid⟩
  · exact .inl ⟨r, hr, .refl r⟩
  · exact .inr ⟨by rw [show s.procs p = .inserted r from hby]; rfl, .inl rfl⟩
  · exact .inr ⟨by rw [show s.procs p = .reinserted r from hby]; rfl, .inr rfl⟩
  · have hobject : (s.procs p).object = some r := by
      rw [show s.procs p = .updated r from hby]
      rfl
    have hagree := hinv.agree r₀ r (handle_row hr₀) (handle_object hobject)
    have huuid := hagree.uuid (hinv.rowsId r₀ hr₀) hid
    exact .inl ⟨r₀, hr₀, hid.symm, huuid.symm, (hagree.key huuid).2.symm⟩

/-- The handles after a step are those of before, up to the fields of an update,
and the object of a create that has just been made or been given its id. -/
lemma handle_cases (hinv : Inv s) (h : Step cols s (p, e) s') :
    (s'.uuids = s.uuids ∧ s'.seq = s.seq ∧
        ∀ b, s'.Handle b → ∃ a, s.Handle a ∧ SameKey b a) ∨
      ∃ b, (s'.procs p).object = some b ∧
        (∀ c, s'.Handle c → c = b ∨ c ∈ s.rows ∨ ∃ q, q ≠ p ∧ (s.procs q).object = some c) ∧
        (b.id = none ∧ b.uuid ∉ s.uuids ∧ s'.uuids = b.uuid :: s.uuids ∧ s'.seq = s.seq ∨
          ∃ a row, (s.procs p).creating = some a ∧ SameKey row a ∧
            b = { row with id := some s.seq } ∧ s'.uuids = s.uuids ∧ s'.seq = s.seq + 1) := by
  -- the rows and the other requests are as before when a create moves
  have hothers : ∀ b, s'.rows = s.rows → (s'.procs p).object = some b → ∀ c, s'.Handle c →
      c = b ∨ c ∈ s.rows ∨ ∃ q, q ≠ p ∧ (s.procs q).object = some c := by
    rintro b hrows hb c (hc | ⟨q, hq⟩)
    · exact .inr (.inl (hrows ▸ hc))
    · by_cases hqp : q = p
      · rw [hqp, hb] at hq
        exact .inl (Option.some.inj hq).symm
      · rw [h.procs_of_ne hqp] at hq
        exact .inr (.inr ⟨q, hqp, hq⟩)
  rcases h.change with ⟨huuids, hseq, hobject⟩ | ⟨uuid, request, hfresh, -, rfl⟩ |
    ⟨a, row, ha, -, hkey, rfl⟩
  · refine .inl ⟨huuids, hseq, ?_⟩
    rintro b (hb | ⟨q, hq⟩)
    · rcases hinv.row_cases h hb with ⟨r₀, hr₀, hkey⟩ | ⟨hpending, -⟩
      · exact ⟨r₀, handle_row hr₀, hkey⟩
      · exact ⟨b, handle_object (Proc.object_of_pending hpending), .refl b⟩
    · by_cases hqp : q = p
      · rw [hqp] at hq
        rcases hobject b hq with hb | ⟨a, ha, hkey⟩
        · exact ⟨b, handle_row hb, .refl b⟩
        · exact ⟨a, handle_object ha, hkey⟩
      · rw [h.procs_of_ne hqp] at hq
        exact ⟨b, handle_object hq, .refl b⟩
  · have hb : ((State.set { s with uuids := uuid :: s.uuids } p
        (.updating (newInstance uuid request) request)).procs p).object =
          some (newInstance uuid request) := by
      rw [State.set_procs_self]
      rfl
    exact .inr ⟨_, hb, hothers _ rfl hb, .inl ⟨rfl, hfresh, rfl, rfl⟩⟩
  · have hb : ((State.set { s with seq := s.seq + 1 } p
        (.inserted { row with id := some s.seq })).procs p).object =
          some { row with id := some s.seq } := by
      rw [State.set_procs_self]
      rfl
    exact .inr ⟨_, hb, hothers _ rfl hb, .inr ⟨a, row, ha, hkey, rfl, rfl, rfl⟩⟩

/-! ### The steps keep it -/

lemma bound_step (hinv : Inv s) (h : Step cols s (p, e) s') {b : AuthorityInstance}
    (hb : s'.Handle b) : b.uuid ∈ s'.uuids ∧ ∀ i, b.id = some i → i < s'.seq := by
  rcases hinv.handle_cases h with ⟨huuids, hseq, hsame⟩ | ⟨c, hc, hothers, hcase⟩
  · obtain ⟨a, ha, hkey⟩ := hsame b hb
    rw [huuids, hseq, hkey.uuid, hkey.id]
    exact hinv.bound a ha
  · have hold : ∀ a, s.Handle a → a.uuid ∈ s'.uuids ∧ ∀ i, a.id = some i → i < s'.seq := by
      intro a ha
      obtain ⟨huuid, hlt⟩ := hinv.bound a ha
      rcases hcase with ⟨-, -, huuids, hseq⟩ | ⟨-, -, -, -, -, huuids, hseq⟩
      · rw [huuids, hseq]
        exact ⟨List.mem_cons_of_mem _ huuid, hlt⟩
      · rw [huuids, hseq]
        exact ⟨huuid, fun i hi => (hlt i hi).trans (Nat.lt_succ_self _)⟩
    rcases hothers b hb with rfl | hb | ⟨q, -, hq⟩
    · rcases hcase with ⟨hid, -, huuids, -⟩ | ⟨a, row, ha, hkey, rfl, huuids, hseq⟩
      · rw [huuids, hid]
        exact ⟨List.mem_cons_self, fun i hi => by cases hi⟩
      · have hdrawn := (hinv.bound a (handle_object (Proc.object_of_creating ha))).1
        rw [huuids, hseq]
        refine ⟨show row.uuid ∈ s.uuids from hkey.uuid ▸ hdrawn, fun i hi => ?_⟩
        cases hi
        exact Nat.lt_succ_self _
    · exact hold b (handle_row hb)
    · exact hold b (handle_object hq)

lemma agree_step (hinv : Inv s) (h : Step cols s (p, e) s') {b c : AuthorityInstance}
    (hb : s'.Handle b) (hc : s'.Handle c) : Agree b c := by
  rcases hinv.handle_cases h with ⟨-, -, hsame⟩ | ⟨d, hd, hothers, hcase⟩
  · obtain ⟨b₀, hb₀, hkey⟩ := hsame b hb
    obtain ⟨c₀, hc₀, hkey'⟩ := hsame c hc
    exact (hinv.agree b₀ c₀ hb₀ hc₀).congr hkey hkey'
  · -- the object of the create agrees with all others, which are as before
    have hnew : ∀ a, (a ∈ s.rows ∨ ∃ q, q ≠ p ∧ (s.procs q).object = some a) → Agree d a := by
      intro a ha
      have hhandle : s.Handle a := ha.imp_right fun ⟨q, _, hq⟩ => ⟨q, hq⟩
      obtain ⟨huuid, hlt⟩ := hinv.bound a hhandle
      rcases hcase with ⟨hid, hfresh, -⟩ | ⟨a₀, row, ha₀, hkey, rfl, -⟩
      · refine .of_ne (fun heq => hfresh (heq ▸ huuid)) fun hne => absurd hid hne
      · obtain ⟨hrows, hothers'⟩ := hinv.fresh p a₀ ha₀
        refine .of_ne (fun heq => ?_) fun _ heq => lt_irrefl _ (hlt s.seq heq.symm)
        have heq : a.uuid = a₀.uuid := heq.symm.trans hkey.uuid
        rcases ha with ha | ⟨q, hqp, hq⟩
        · exact hrows a ha heq
        · exact hothers' q a hqp hq heq
    have hhandle : ∀ a, (a ∈ s.rows ∨ ∃ q, q ≠ p ∧ (s.procs q).object = some a) → s.Handle a :=
      fun a ha => ha.imp_right fun ⟨q, _, hq⟩ => ⟨q, hq⟩
    rcases hothers b hb with rfl | hb
    · rcases hothers c hc with rfl | hc
      · exact .refl c
      · exact hnew c hc
    · rcases hothers c hc with rfl | hc
      · exact (hnew b hb).symm
      · exact hinv.agree b c (hhandle b hb) (hhandle c hc)

lemma rowsId_step (hinv : Inv s) (h : Step cols s (p, e) s') {r : AuthorityInstance}
    (hr : r ∈ s'.rows) : r.id ≠ none := by
  rcases hinv.row_cases h hr with ⟨r₀, hr₀, hkey⟩ | ⟨hpending, -⟩
  · rw [hkey.id]
    exact hinv.rowsId r₀ hr₀
  · exact hinv.savingId p r (Proc.saving_of_pending hpending)

lemma savingId_step (hinv : Inv s) (h : Step cols s (p, e) s') {a : AuthorityInstance}
    (ha : (s'.procs q).saving = some a) : a.id ≠ none := by
  by_cases hqp : q = p
  · subst hqp
    cases h with
    | saveNew h hid =>
        rw [State.set_procs_self] at ha
        cases ha
        exact Option.some_ne_none _
    | saveUpdate h hid hcolumns | saveMiss h hid hcolumns =>
        rw [State.set_procs_self] at ha
        cases ha
        rwa [(SameKey.columnsOf hcolumns).id]
    | saveInsert h hrow hfree =>
        rw [State.set_procs_self] at ha
        cases ha
        exact hinv.savingId _ _ (by rw [h]; rfl)
    | _ => simp [Proc.saving] at ha
  · rw [h.procs_of_ne hqp] at ha
    exact hinv.savingId q a ha

/-- The object of a create stays unknown to the rows and the other requests. -/
lemma fresh_step (hinv : Inv s) (h : Step cols s (p, e) s') {a : AuthorityInstance}
    (ha : (s'.procs q).creating = some a) : (∀ r ∈ s'.rows, r.uuid ≠ a.uuid) ∧
      ∀ q' b, q' ≠ q → (s'.procs q').object = some b → b.uuid ≠ a.uuid := by
  by_cases hqp : q = p
  · subst hqp
    -- the rows and the other requests are those of before
    have hkept : ∀ b, (∃ r ∈ s.rows, r.uuid = b.uuid) ∨
        (∃ q', q' ≠ q ∧ (s.procs q').object = some b) → b.uuid ≠ a.uuid := by
      rintro b hb heq
      rcases h.creating_cases hinv.rowsId ha with ⟨a₀, ha₀, huuid⟩ | hnew
      · obtain ⟨hrows, hothers⟩ := hinv.fresh q a₀ ha₀
        rcases hb with ⟨r, hr, hrb⟩ | ⟨q', hne, hq'⟩
        · exact hrows r hr (hrb.trans (heq.trans huuid.symm))
        · exact hothers q' b hne hq' (heq.trans huuid.symm)
      · rcases hb with ⟨r, hr, hrb⟩ | ⟨q', hne, hq'⟩
        · exact hnew (heq ▸ hrb ▸ (hinv.bound r (handle_row hr)).1)
        · exact hnew (heq ▸ (hinv.bound b (handle_object hq')).1)
    constructor
    · intro r hr
      rcases hinv.row_cases h hr with ⟨r₀, hr₀, hkey⟩ | ⟨hpending, hcommit⟩
      · exact hkept r (.inl ⟨r₀, hr₀, hkey.uuid.symm⟩)
      · have hended := h.creating_of_commit hcommit
        rw [hended] at ha
        cases ha
    · intro q' b hne hb
      rw [h.procs_of_ne hne] at hb
      exact hkept b (.inr ⟨q', hne, hb⟩)
  · rw [h.procs_of_ne hqp] at ha
    obtain ⟨hrows, hothers⟩ := hinv.fresh q a ha
    have hbound := hinv.bound a (handle_object (Proc.object_of_creating ha))
    constructor
    · intro r hr
      rcases hinv.row_cases h hr with ⟨r₀, hr₀, hkey⟩ | ⟨hpending, -⟩
      · rw [hkey.uuid]
        exact hrows r₀ hr₀
      · exact hothers p r (Ne.symm hqp) (Proc.object_of_pending hpending)
    · intro q' b hne hb
      by_cases hq'p : q' = p
      · subst hq'p
        rcases h.change with ⟨-, -, hobject⟩ | ⟨uuid, request, hfresh, -, rfl⟩ |
          ⟨a₀, row, ha₀, -, hkey, rfl⟩
        · rcases hobject b hb with hb | ⟨b₀, hb₀, hkey⟩
          · exact hrows b hb
          · rw [hkey.uuid]
            exact hothers q' b₀ hne hb₀
        · rw [State.set_procs_self] at hb
          cases hb
          intro heq
          have huuid : uuid = a.uuid := heq
          exact hfresh (huuid ▸ hbound.1)
        · rw [State.set_procs_self] at hb
          cases hb
          exact fun heq =>
            hothers q' a₀ hne (Proc.object_of_creating ha₀) (hkey.uuid.symm.trans heq)
      · rw [h.procs_of_ne hq'p] at hb
        exact hothers q' b hne hb

/-- Every step keeps the invariant. -/
theorem step (hinv : Inv s) (h : Step cols s (p, e) s') : Inv s' where
  rowsId _ hr := hinv.rowsId_step h hr
  savingId _ _ ha := hinv.savingId_step h ha
  bound _ ha := hinv.bound_step h ha
  agree _ _ ha hb := hinv.agree_step h ha hb
  fresh _ _ ha := hinv.fresh_step h ha

end Inv

/-- The invariant holds in every reachable state. -/
theorem inv_of_runs (h₀ : Initial s₀) (h : Runs cols s₀ tr s) : Inv s :=
  h.invariant (fun _ _ _ hinv h => hinv.step h) h₀.inv

/-! ### Locks -/

/-- A row that is locked is there, and locked by one request. -/
structure Locks (s : State) : Prop where
  locked : ∀ p i, (s.procs p).row = some i → ∃ r ∈ s.rows, r.id = some i
  alone : ∀ p q i, p ≠ q → (s.procs p).row = some i → (s.procs q).row ≠ some i

/-- A request locks a row that is there and that no other has locked. -/
lemma Step.row_cases {i : ℕ} (h : Step cols s (p, e) s') (hi : (s'.procs p).row = some i) :
    s'.rows = s.rows ∧ (∃ r ∈ s.rows, r.id = some i) ∧ ∀ q, q ≠ p → (s.procs q).row ≠ some i := by
  cases h with
  | saveUpdate h hid hcolumns hrow hfree =>
      rw [State.set_procs_self, Proc.row, (SameKey.columnsOf hcolumns).id] at hi
      exact ⟨rfl, hi ▸ hrow, hi ▸ hfree⟩
  | deleteRow h hrow hfree =>
      rw [State.set_procs_self] at hi
      exact ⟨rfl, hi ▸ hrow, hi ▸ hfree⟩
  | _ => simp [Proc.row] at hi

/-- A row stays, up to its other fields, unless the request that deletes it has locked it. -/
lemma Step.exists_id {i : ℕ} (h : Step cols s (p, e) s') (hr : ∃ r ∈ s.rows, r.id = some i)
    (hi : (s.procs p).row ≠ some i) : ∃ r ∈ s'.rows, r.id = some i := by
  obtain ⟨r, hr, hid⟩ := hr
  have hby := h.by_self
  rw [h.rows_eq]
  cases e with
  | created row | reinserted row => exact ⟨r, List.mem_append_left _ hr, hid⟩
  | updated row =>
      refine ⟨_, List.mem_map_of_mem hr, ?_⟩
      split_ifs with heq
      · exact heq.symm.trans hid
      · exact hid
  | deleted row =>
      refine ⟨r, List.mem_filter.mpr ⟨hr, decide_eq_true fun heq => hi ?_⟩, hid⟩
      rw [show s.procs p = .deleted row from hby, ← hid, heq]
      rfl
  | _ => exact ⟨r, hr, hid⟩

namespace Locks

lemma step (hl : Locks s) (h : Step cols s (p, e) s') : Locks s' where
  locked q i hi := by
    by_cases hq : q = p
    · subst hq
      obtain ⟨hrows, hr, -⟩ := h.row_cases hi
      exact hrows ▸ hr
    · rw [h.procs_of_ne hq] at hi
      exact h.exists_id (hl.locked q i hi) (hl.alone q p i hq hi)
  alone q q' i hne hi := by
    by_cases hq : q = p
    · subst hq
      rw [h.procs_of_ne hne.symm]
      exact (h.row_cases hi).2.2 q' hne.symm
    · rw [h.procs_of_ne hq] at hi
      by_cases hq' : q' = p
      · subst hq'
        exact fun hi' => (h.row_cases hi').2.2 q hq hi
      · rw [h.procs_of_ne hq']
        exact hl.alone q q' i hne hi

/-- The row of a request that has locked it. -/
lemma exists_locked {a : AuthorityInstance} (hl : Locks s) (hinv : Inv s)
    (hlock : (s.procs p).row = a.id) (hobject : (s.procs p).object = some a) (hid : a.id ≠ none) :
    ∃ r ∈ s.rows, SameKey r a := by
  obtain ⟨i, hi⟩ := Option.ne_none_iff_exists'.mp hid
  obtain ⟨r, hr, hrow⟩ := hl.locked p i (hlock.trans hi)
  have hagree := hinv.agree r a (.inl hr) (.inr ⟨p, hobject⟩)
  have huuid := hagree.uuid (hinv.rowsId r hr) (hrow.trans hi.symm)
  exact ⟨r, hr, hrow.trans hi.symm, huuid, (hagree.key huuid).2⟩

end Locks

lemma Initial.locks (h : Initial s) : Locks s where
  locked p i hi := by
    rw [h.procs p] at hi
    cases hi
  alone p q i _ hi := by
    rw [h.procs p] at hi
    cases hi

/-- The locks are sound in every reachable state. -/
lemma Initial.locks_of_runs (h₀ : Initial s₀) (h : Runs cols s₀ tr s) : Locks s :=
  h.invariant (fun _ _ _ hl h => hl.step h) h₀.locks

end Authority

end AdcsConnector
