/-
The names of discoveries and of authority instances: two columns that no
constraint keeps unique, filled by transactions that look a name up before they
insert it.

* `Proc.claims`, `Authority.Proc.claims`: the name that a request has looked up, or is
  about to insert anew;
* `State.historyNames`, `Authority.State.names`: the two columns, with these names;
* `Step.change_historyNames`, `Authority.Inv.change_names`: every step of either
  system is one of `UniqueKey.Ledger.Change`;
* `NamesApart`: no name is committed between the check of the name and the commit by another
  request, and no update whose row is gone finds its name taken;
* `namesUnique_of_runs`: the names stay unique in the runs whose steps are apart;
* `names_collide`: two requests that both look before either commits.
-/
import AdcsConnector.Authority.Serial
import AdcsConnector.Library.UniqueKey
import AdcsConnector.Store.Safety

namespace AdcsConnector

open UniqueKey

/-! ### The names of the discoveries -/

/-- The name of a creation between its name check and its commit. -/
def Proc.claims : Proc → Option String
  | createChecked request => some request.name
  | createSaved row => some row.name
  | _ => none

/-- The names of the discoveries. -/
def State.historyNames (s : State) : Ledger Pid String where
  table := s.store.discoveryHistory.map (·.name)
  claims p := (s.procs p).claims

lemma Store.completeRow_name (d : ℕ) (h : DiscoveryHistory) : (completeRow d h).name = h.name := by
  rw [completeRow]; split <;> rfl

lemma Store.failRow_name (u : UUID) (reason : String) (h : DiscoveryHistory) :
    (failRow u reason h).name = h.name := by
  rw [failRow]; split <;> rfl

/-- A commit changes no name, and adds the one of a new discovery only. -/
lemma Event.names_sublist {e : Event} (hne : ∀ row, e ≠ .created row) (s : Store) :
    ((e.commit s).discoveryHistory.map (·.name)).Sublist (s.discoveryHistory.map (·.name)) := by
  cases e with
  | created row => exact absurd rfl (hne row)
  | persisted d ins links =>
      simp only [commit, Store.persist, List.map_map, Function.comp_def, Store.completeRow_name,
        List.Sublist.refl]
  | failed d uuid reason =>
      simp only [commit, Store.fail, List.map_map, Function.comp_def, Store.failRow_name,
        List.Sublist.refl]
  | deleted d dropped => exact List.filter_sublist.map _
  | _ => exact .refl _

/-- A creation claims its name when it has found it missing. -/
lemma Step.claims_cases {cfg : Settings} {s s' : State} {p : Pid} {e : Event}
    (h : Step cfg s (p, e) s') {k : String} (hk : (s'.procs p).claims = some k) :
    (s.procs p).claims = some k ∨ ∀ r ∈ s.store.discoveryHistory, r.name ≠ k := by
  cases h with
  | createCheck h hkind hname =>
      rw [State.set_procs_self] at hk
      cases hk
      exact .inr hname
  | createSave uuid h hfresh =>
      rw [State.set_procs_self] at hk
      exact .inl (by rw [h]; exact hk)
  | _ => simp_all [Proc.claims]

/-- A discovery is committed while no other creation stands between its check of the name
and its commit. -/
def State.Apart (s : State) (p : Pid) (e : Event) : Prop :=
  ∀ row, e = .created row → s.historyNames.Alone p row.name

/-- A step of the discoveries is a change of their names. -/
lemma Step.change_historyNames {cfg : Settings} {s s' : State} {p : Pid} {e : Event}
    (h : Step cfg s (p, e) s') (hapart : s.Apart p e) :
    s.historyNames.Change p s'.historyNames := by
  by_cases he : ∃ row, e = .created row
  · obtain ⟨row, rfl⟩ := he
    have hx : s.procs p = .createSaved row := h.by_self
    refine .commit (congrArg Proc.claims hx) (hapart row rfl) ?_ ?_
    · rw [State.historyNames, State.historyNames, h.store_eq]
      exact List.map_append
    · cases h
      exact congrArg Proc.claims (State.set_procs_self ..)
  · refine .keep ?_ fun k hk => (h.claims_cases hk).imp_right fun hfree hmem => ?_
    · rw [State.historyNames, h.store_eq]
      exact Event.names_sublist (fun row heq => he ⟨row, heq⟩) s.store
    · obtain ⟨r, hr, hname⟩ := List.mem_map.mp hmem
      exact hfree r hr hname

/-! ### The names of the authority instances -/

namespace Authority

/-- The name of a create between its name check and its commit, or of an update that
inserts its row anew. -/
def Proc.claims (x : Proc) : Option String := (x.creating.or x.unmatched).map (·.name)

/-- The names of the authority instances. -/
def State.names (s : State) : Ledger Pid String where
  table := s.rows.map (·.name)
  claims p := (s.procs p).claims

variable {cols : Columns} {s s' : State} {p : Pid} {e : Event}

/-- A commit changes no name, and adds the one of an inserted row only. -/
lemma Inv.names_sublist (hinv : Inv s) (h : Step cols s (p, e) s')
    (hne : ∀ row, e ≠ .created row ∧ e ≠ .reinserted row) :
    (s'.rows.map (·.name)).Sublist (s.rows.map (·.name)) := by
  have hby := h.by_self
  rw [h.rows_eq]
  cases e with
  | created row => exact absurd rfl (hne row).1
  | reinserted row => exact absurd rfl (hne row).2
  | updated row =>
      have hobject : (s.procs p).object = some row := by
        rw [show s.procs p = .updated row from hby]
        rfl
      have hname : ∀ r ∈ s.rows, (if r.id = row.id then row else r).name = r.name := by
        intro r hr
        split_ifs with hid
        · have hagree := hinv.agree r row (.inl hr) (.inr ⟨p, hobject⟩)
          exact (hagree.key (hagree.uuid (hinv.rowsId r hr) hid)).2.symm
        · rfl
      have hmap : (s.rows.map fun r => if r.id = row.id then row else r).map (·.name) =
          s.rows.map (·.name) := by
        rw [List.map_map]
        exact List.map_congr_left hname
      rw [Event.commit, hmap]
  | deleted row => exact List.filter_sublist.map _
  | _ => exact .refl _

/-- A create claims its name when it has found it missing; an update claims the name of
its row when this is gone. -/
lemma Inv.claims_cases (hinv : Inv s) (h : Step cols s (p, e) s') {k : String}
    (hk : (s'.procs p).claims = some k) :
    (s.procs p).claims = some k ∨ (∀ r ∈ s.rows, r.name ≠ k) ∨
      ∃ a, s'.procs p = .missed a ∧ a.name = k := by
  cases h with
  | createCheck uuid h hname hfresh =>
      rw [State.set_procs_self] at hk
      cases hk
      exact .inr (.inl hname)
  | updateGet a h ha huuid =>
      rw [State.set_procs_self, Proc.claims, Proc.creating, if_neg (hinv.rowsId a ha)] at hk
      cases hk
  | assign h hassign =>
      have hkey := SameKey.updateAuthorityInstance hassign
      rw [State.set_procs_self, Proc.claims, Proc.creating] at hk
      refine .inl ?_
      split_ifs at hk with hnone
      · rw [h, Proc.claims, Proc.creating, if_pos (hkey.id.symm.trans hnone), ← hk]
        exact congrArg some hkey.name.symm
      · cases hk
  | verify h htransport =>
      rw [State.set_procs_self] at hk
      exact .inl (by rw [h]; exact hk)
  | saveNew h hid hcolumns =>
      rw [State.set_procs_self] at hk
      refine .inl ?_
      rw [h, Proc.claims, Proc.creating, if_pos hid, ← hk]
      exact congrArg some (SameKey.columnsOf hcolumns).name.symm
  | saveMiss h hid hcolumns hrow =>
      rw [State.set_procs_self] at hk
      cases hk
      exact .inr (.inr ⟨_, State.set_procs_self .., rfl⟩)
  | saveInsert h hrow hfree =>
      rw [State.set_procs_self] at hk
      exact .inl (by rw [h]; exact hk)
  | _ => simp [Proc.claims, Proc.creating, Proc.unmatched] at hk

/-- A row is committed while no other request has claimed its name, and an update that
finds its row gone finds no other row of its name. -/
structure State.Apart (s : State) (p : Pid) (e : Event) (s' : State) : Prop where
  commit : ∀ row, e = .created row ∨ e = .reinserted row → s.names.Alone p row.name
  missed : ∀ a, s'.procs p = .missed a → ∀ r ∈ s.rows, r.name ≠ a.name

/-- A step of the authority instances is a change of their names. -/
lemma Inv.change_names (hinv : Inv s) (h : Step cols s (p, e) s') (hapart : s.Apart p e s') :
    s.names.Change p s'.names := by
  by_cases he : ∃ row, e = .created row ∨ e = .reinserted row
  · obtain ⟨row, he⟩ := he
    have hrow : (s.procs p).claims = some row.name ∧ e.commit s.rows = s.rows ++ [row] := by
      rcases he with rfl | rfl
      · exact ⟨by rw [show s.procs p = .inserted row from h.by_self]; rfl, rfl⟩
      · exact ⟨by rw [show s.procs p = .reinserted row from h.by_self]; rfl, rfl⟩
    refine .commit hrow.1 (hapart.commit row he) ?_ ?_
    · rw [State.names, State.names, h.rows_eq, hrow.2]
      exact List.map_append
    · rcases he with rfl | rfl <;> cases h <;> exact congrArg Proc.claims (State.set_procs_self ..)
  · refine .keep ?_ fun k hk => ?_
    · exact hinv.names_sublist h fun row => ⟨fun heq => he ⟨row, .inl heq⟩,
        fun heq => he ⟨row, .inr heq⟩⟩
    · -- the name is looked up by a create, and by an update only when its row is gone
      have hfree : (∀ r ∈ s.rows, r.name ≠ k) → k ∉ s.names.table := by
        intro hfree hmem
        obtain ⟨r, hr, hname⟩ := List.mem_map.mp hmem
        exact hfree r hr hname
      rcases hinv.claims_cases h hk with hold | hnew | ⟨a, ha, rfl⟩
      · exact .inl hold
      · exact .inr (hfree hnew)
      · exact .inr (hfree (hapart.missed a ha))

end Authority

/-! ### The two tables side by side -/

/-- The discoveries and the authority instances; they share no table, no
sequence and no lock. -/
abbrev JointStep (cfg : Settings) (cols : Authority.Columns) :=
  Interleaved (Step cfg) (Authority.Step cols)

/-- No two discoveries and no two authority instances have one name. -/
def NamesUnique (x : State × Authority.State) : Prop :=
  (x.1.store.discoveryHistory.map (·.name)).Nodup ∧ (x.2.rows.map (·.name)).Nodup

/-- The step is apart in its table. -/
def NamesApart (x : State × Authority.State) :
    (Pid × Event) ⊕ (Authority.Pid × Authority.Event) → State × Authority.State → Prop
  | .inl (p, e), _ => x.1.Apart p e
  | .inr (p, e), y => x.2.Apart p e y.2

/-- The names, with those claimed, stay unique. -/
lemma unique_step {cfg : Settings} {cols : Authority.Columns} {x y : State × Authority.State}
    {e : (Pid × Event) ⊕ (Authority.Pid × Authority.Event)}
    (hinv : Authority.Inv x.2) (hdiscoveries : x.1.historyNames.Unique)
    (hauthorities : x.2.names.Unique) (h : JointStep cfg cols x e y) (hapart : NamesApart x e y) :
    Authority.Inv y.2 ∧ y.1.historyNames.Unique ∧ y.2.names.Unique := by
  cases h with
  | left u h =>
      rename_i s t e
      obtain ⟨p, e⟩ := e
      refine ⟨hinv, hdiscoveries.change (h.change_historyNames hapart) fun q hq => ?_,
        hauthorities⟩
      exact congrArg Proc.claims (h.procs_of_ne hq)
  | right s h =>
      rename_i t t' e
      obtain ⟨p, e⟩ := e
      refine ⟨hinv.step h, hdiscoveries, hauthorities.change (hinv.change_names h hapart)
        fun q hq => ?_⟩
      exact congrArg Authority.Proc.claims (h.procs_of_ne hq)

/-- **Names stay unique** in every run in which no name is committed between the check of
the name and the commit by another request, and no update inserts its row anew under a
name that is taken. -/
theorem namesUnique_of_runs {cfg : Settings} {cols : Authority.Columns}
    {x₀ x : State × Authority.State}
    {tr : List ((Pid × Event) ⊕ (Authority.Pid × Authority.Event))} (h₁ : Initial x₀.1)
    (h₂ : Authority.Initial x₀.2) (hnames : NamesUnique x₀)
    (hrun : Run (Restricted (JointStep cfg cols) NamesApart) x₀ tr x) : NamesUnique x := by
  have hnone₁ : ∀ p, x₀.1.historyNames.claims p = none := fun p =>
    congrArg Proc.claims (h₁.procs p)
  have hnone₂ : ∀ p, x₀.2.names.claims p = none := fun p =>
    congrArg Authority.Proc.claims (h₂.procs p)
  have hinv := hrun.invariant
    (I := fun x => Authority.Inv x.2 ∧ x.1.historyNames.Unique ∧ x.2.names.Unique)
    (fun _ _ _ hi hst => unique_step hi.1 hi.2.1 hi.2.2 hst.1 hst.2)
    ⟨h₂.inv, .of_table hnames.1 hnone₁, .of_table hnames.2 hnone₂⟩
  exact ⟨hinv.2.1.table, hinv.2.2.table⟩

/-! ### Two discoveries and a create that overlap -/

/-- A step of the discoveries that commits none is apart. -/
lemma apart_statement (s : State) (p : Pid) : s.Apart p .statement := by
  rintro row ⟨⟩

lemma Authority.Proc.not_missed {x : Authority.Proc} (h : x.unmatched = none)
    (a : Authority.AuthorityInstance) : x ≠ .missed a := by
  rintro rfl
  cases h

/-- A statement of a request on authority instances is apart, unless its row is gone. -/
lemma Authority.apart_statement {s s' : Authority.State} {p : Authority.Pid}
    (h : (s'.procs p).unmatched = none) : s.Apart p .statement s' :=
  ⟨fun row hrow => (by rcases hrow with hrow | hrow <;> cases hrow),
    fun a ha => absurd ha (Authority.Proc.not_missed h a)⟩

/-- Two discoveries and an authority instance, whose names are all checked before any of
them is committed. -/
theorem namesUnique_sample : ∃ x tr, NamesUnique x ∧
    Run (Restricted (JointStep ⟨3600, 500⟩ Authority.sampleColumns) NamesApart)
      (emptyState, Authority.oneRow) tr x ∧
    x.1.store.discoveryHistory.map (·.name) = ["d", "e"] ∧
    x.2.rows.map (·.name) = ["ADCS", "ADCS 2"] := by
  have hr : Run (Restricted (JointStep ⟨3600, 500⟩ Authority.sampleColumns) NamesApart)
      (emptyState, Authority.oneRow) [] (emptyState, Authority.oneRow) := .refl
  -- the names are checked
  have hr := hr.tail ⟨.left _ (.createBegin (p := 0) ⟨"d", "PyADCS-WinRM"⟩ rfl),
    apart_statement _ _⟩
  have hr := hr.tail ⟨.left _ (.createCheck (p := 0) rfl rfl (List.forall_mem_nil _)),
    apart_statement _ _⟩
  have hr := hr.tail ⟨.left _ (.createBegin (p := 1) ⟨"e", "PyADCS-WinRM"⟩ rfl),
    apart_statement _ _⟩
  have hr := hr.tail ⟨.left _ (.createCheck (p := 1) rfl rfl (List.forall_mem_nil _)),
    apart_statement _ _⟩
  have hr := hr.tail ⟨.right _ (.createBegin (p := 0) Authority.sampleCreate rfl),
    Authority.apart_statement rfl⟩
  have hr := hr.tail ⟨.right _ (.createCheck (p := 0) 8 rfl (by decide) (by decide)),
    Authority.apart_statement rfl⟩
  -- the rows are inserted
  have hr := hr.tail ⟨.left _ (.createSave (p := 0) 7 rfl List.not_mem_nil),
    apart_statement _ _⟩
  have hr := hr.tail ⟨.left _ (.createSave (p := 1) 8 rfl (by decide)), apart_statement _ _⟩
  have hr := hr.tail ⟨.right _ (.assign (p := 0) rfl Authority.updateAuthorityInstance_create),
    Authority.apart_statement rfl⟩
  have hr := hr.tail ⟨.right _ (.verify (p := 0) rfl rfl), Authority.apart_statement rfl⟩
  have hr := hr.tail ⟨.right _ (.saveNew (p := 0) rfl rfl Authority.columnsOf_create),
    Authority.apart_statement rfl⟩
  -- and committed, each while no other request has its name
  have hr := hr.tail ⟨.left _ (.createCommit (p := 0) rfl), fun row hrow q hq => by
    cases hrow
    by_cases hq1 : q = 1
    · rw [hq1]
      exact of_decide_eq_true rfl
    · simp [State.historyNames, State.set, Function.update_apply, hq, hq1, emptyState,
        Proc.claims]⟩
  have hr := hr.tail ⟨.left _ (.createCommit (p := 1) rfl), fun row hrow q hq => by
    cases hrow
    by_cases hq0 : q = 0
    · rw [hq0]
      exact of_decide_eq_true rfl
    · simp [State.historyNames, State.set, Function.update_apply, hq, hq0, emptyState,
        Proc.claims]⟩
  have hr := hr.tail ⟨.right _ (.createCommit (p := 0) rfl), fun row hrow q hq => by
    simp [Authority.State.names, Authority.State.set, Function.update_apply, hq, Authority.oneRow,
      Authority.Proc.claims, Authority.Proc.creating, Authority.Proc.unmatched],
    fun a ha => absurd ha (Authority.Proc.not_missed rfl a)⟩
  have hnames : NamesUnique (emptyState, Authority.oneRow) :=
    ⟨List.nodup_nil, List.nodup_singleton _⟩
  exact ⟨_, _, namesUnique_of_runs emptyState_initial Authority.oneRow_initial hnames hr, hr, rfl,
    rfl⟩

/-- The second discovery is checked before the first one commits. -/
theorem names_collide :
    ¬ ∀ (cfg : Settings) (cols : Authority.Columns) (x₀ x : State × Authority.State)
      (tr : List ((Pid × Event) ⊕ (Authority.Pid × Authority.Event))), Initial x₀.1 →
      Authority.Initial x₀.2 → NamesUnique x₀ → Run (JointStep cfg cols) x₀ tr x →
      NamesUnique x := by
  intro h
  have hr : Runs ⟨3600, 500⟩ emptyState [] emptyState := .refl
  -- both names are checked
  have hr := hr.tail (.createBegin (p := 0) ⟨"d", "PyADCS-WinRM"⟩ rfl)
  have hr := hr.tail (.createCheck (p := 0) rfl rfl (List.forall_mem_nil _))
  have hr := hr.tail (.createBegin (p := 1) ⟨"d", "PyADCS-WinRM"⟩ rfl)
  have hr := hr.tail (.createCheck (p := 1) rfl rfl (List.forall_mem_nil _))
  -- both rows are inserted and committed
  have hr := hr.tail (.createSave (p := 0) 7 rfl List.not_mem_nil)
  have hr := hr.tail (.createSave (p := 1) 8 rfl (by decide))
  have hr := hr.tail (.createCommit (p := 0) rfl)
  have hr := hr.tail (.createCommit (p := 1) rfl)
  have hnames := h _ Authority.sampleColumns (emptyState, Authority.oneRow) _ _
    emptyState_initial Authority.oneRow_initial
    ⟨List.nodup_nil, List.nodup_singleton _⟩ (hr.interleaved_left _ Authority.oneRow)
  exact (List.nodup_cons.mp hnames.1).1 List.mem_cons_self

end AdcsConnector
