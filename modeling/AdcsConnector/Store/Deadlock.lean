/-
Discoveries, deletes and sweeps do not deadlock.

* `Resource`, `State.asks`, `State.holds`: the locks, who waits for which and
  who has which; an insert waits for an index entry, a request for the advisory
  lock stands in a queue;
* `State.WaitsFor`: the waits-for relation, with the modes and the queue of the
  advisory lock;
* `LockInv`: the queue holds the requests, once each, and an insert asks for a
  fingerprint above all those it has inserted;
* `Inv.exists_step_of_not_waiting`: a transaction that waits for nobody can
  take its next step;
* `deadlockFree_of_runs`: the relation is acyclic, and a step is possible
  whenever a transaction is open.
-/
import AdcsConnector.Store.Safety
import AdcsConnector.Library.WaitsFor

namespace AdcsConnector

variable {cfg : Settings} {s₀ s s' : State} {p q : Pid} {e : Event} {tr : List (Pid × Event)}

/-! ### The locks -/

/-- What a transaction can wait for. -/
inductive Resource where
  | advisory
  | row (d : ℕ)
  | lease
  | index (fingerprint : String)
  deriving DecidableEq

/-- The order in which the transactions take their locks: the advisory lock,
then a row, then the index entries by fingerprint. -/
def Resource.rank : Resource → ℕ ×ₗ String
  | advisory => toLex (0, "")
  | row _ => toLex (1, "")
  | lease => toLex (1, "")
  | index fingerprint => toLex (2, fingerprint)

/-- The id of the history row with a uuid. -/
def Store.rowOf (s : Store) (uuid : UUID) : Option ℕ :=
  (s.discoveryHistory.find? fun r => r.uuid = uuid).map (·.id)

namespace State

/-- The lock that the next statement of an activity takes, if any. -/
def asks (s : State) (p : Pid) : Option Resource :=
  match s.procs p with
  | .persistRequested .. | .batchRequested .. => some .advisory
  | .persistLocked dh _ => some (.row dh.id)
  | .failing dh _ => (s.store.rowOf dh.uuid).map .row
  | .deleteBegun uuid => (s.store.rowOf uuid).map .row
  | .inserting _ _ ((fp, _) :: _) _ => some (.index fp)
  | .claimLocked _ => some .lease
  | _ => none

/-- The locks an activity has. -/
def holds (s : State) (p : Pid) : Resource → Prop
  | .advisory => (s.procs p).advisory.isSome
  | .row d => (s.procs p).row = some d
  | .lease => (s.procs p).lease = true
  | .index fp => (∃ c ∈ (s.procs p).inserted, c.fingerprint = fp) ∨
      ∃ c ∈ s.store.certificate, c.fingerprint = fp ∧ c.id ∈ (s.procs p).removed

/-- `q` stands before `p` in the queue of the advisory lock. -/
def Ahead (s : State) (p q : Pid) : Prop :=
  ∃ ahead behind, s.queue = ahead ++ p :: behind ∧ q ∈ ahead

/-- `q` is in the way of `p` for a lock: it holds it or, for the advisory lock,
holds it in a conflicting mode or asks for it in a conflicting mode and stands
before `p` in the queue. -/
def Blocks (s : State) (p q : Pid) : Resource → Prop
  | .advisory => ∃ m m', (s.procs p).requested = some m ∧ m.Conflicts m' ∧
      ((s.procs q).advisory = some m' ∨ s.Ahead p q ∧ (s.procs q).requested = some m')
  | r => s.holds q r

/-- The waits-for relation. -/
def WaitsFor (s : State) (p q : Pid) : Prop := q ≠ p ∧ ∃ r, s.asks p = some r ∧ s.Blocks p q r

end State

/-! ### The order of the locks -/

/-- An insert asks for a fingerprint above those it has inserted. -/
def InsertOrder : Proc → Prop
  | .inserting _ _ todo ins =>
      (todo.Pairwise fun a b => a.1 < b.1) ∧ ∀ k ∈ ins, ∀ t ∈ todo, k.fingerprint < t.1
  | _ => True

/-- The invariant of the locks. -/
structure LockInv (s : State) : Prop where
  nodup : s.queue.Nodup
  queue : ∀ p, p ∈ s.queue ↔ (s.procs p).requested.isSome
  order : ∀ p, InsertOrder (s.procs p)

/-- What a step does to the queue. -/
lemma Step.queue_cases (h : Step cfg s (p, e) s') (hnodup : s.queue.Nodup) :
    (s'.queue = s.queue ∧ (s.procs p).requested = none ∧ (s'.procs p).requested = none) ∨
      (s'.queue = s.queue ++ [p] ∧ (s.procs p).requested = none ∧
        (s'.procs p).requested.isSome) ∨
      (s'.queue = s.queue.erase p ∧ (s'.procs p).requested = none) := by
  cases h with
  | @persistLock p dh c ahead behind hx hqueue hgrant =>
      rw [hqueue] at hnodup
      have hp : p ∉ ahead := fun hp => (List.nodup_append.mp hnodup).2.2 p hp p (by simp) rfl
      refine .inr (.inr ⟨?_, by simp [Proc.requested]⟩)
      rw [hqueue, List.erase_append_right _ hp, List.erase_cons_head]
      rfl
  | @batchLock p bound n ahead behind hx hqueue hgrant =>
      rw [hqueue] at hnodup
      have hp : p ∉ ahead := fun hp => (List.nodup_append.mp hnodup).2.2 p hp p (by simp) rfl
      refine .inr (.inr ⟨?_, by simp [Proc.requested]⟩)
      rw [hqueue, List.erase_append_right _ hp, List.erase_cons_head]
      rfl
  | raise reason hdh => exact .inr (.inr ⟨rfl, by simp [Proc.requested]⟩)
  | crash hactive => exact .inr (.inr ⟨rfl, by simp [Proc.requested]⟩)
  | _ => simp_all [Proc.requested]

lemma Step.insertOrder_self (h : Step cfg s (p, e) s') (ho : InsertOrder (s.procs p)) :
    InsertOrder (s'.procs p) := by
  cases h with
  | selectForUpdate hx hrow hfree =>
      rw [State.set_procs_self]
      exact ⟨newCertificates_pairwise _, by simp⟩
  | insertConflict hx hconflict hfree =>
      rw [hx] at ho
      rw [State.set_procs_self]
      exact ⟨(List.pairwise_cons.mp ho.1).2,
        fun k hk t ht => ho.2 k hk t (List.mem_cons_of_mem _ ht)⟩
  | insertNew hx hnew hfree =>
      rw [hx] at ho
      rw [State.set_procs_self]
      obtain ⟨hhead, htail⟩ := List.pairwise_cons.mp ho.1
      refine ⟨htail, fun k hk t ht => ?_⟩
      rcases List.mem_append.mp hk with hk | hk
      · exact ho.2 k hk t (List.mem_cons_of_mem _ ht)
      · rw [List.mem_singleton.mp hk]
        exact hhead t ht
  | _ => rw [State.set_procs_self]; trivial

lemma LockInv.step (hl : LockInv s) (h : Step cfg s (p, e) s') : LockInv s' := by
  refine ⟨?_, fun q => ?_, fun q => ?_⟩
  · rcases h.queue_cases hl.nodup with ⟨hq, -⟩ | ⟨hq, hnone, -⟩ | ⟨hq, -⟩
    · rw [hq]; exact hl.nodup
    · have hp : p ∉ s.queue := fun hp => by simpa [hnone] using (hl.queue p).mp hp
      rw [hq]
      exact List.nodup_append.mpr ⟨hl.nodup, by simp, fun a ha b hb => by
        rw [List.mem_singleton.mp hb]
        exact fun heq => hp (heq ▸ ha)⟩
    · rw [hq]; exact hl.nodup.erase p
  · by_cases hqp : q = p
    · subst hqp
      rcases h.queue_cases hl.nodup with ⟨hq, hnone, hnone'⟩ | ⟨hq, -, hsome⟩ | ⟨hq, hnone⟩
      · rw [hq, hl.queue, hnone, hnone']
      · simp [hq, hsome]
      · simp [hq, hnone, hl.nodup.mem_erase_iff]
    · rw [h.procs_of_ne hqp, ← hl.queue]
      rcases h.queue_cases hl.nodup with ⟨hq, -⟩ | ⟨hq, -⟩ | ⟨hq, -⟩
      · rw [hq]
      · simp [hq, hqp]
      · rw [hq, List.mem_erase_of_ne hqp]
  · by_cases hqp : q = p
    · exact hqp ▸ h.insertOrder_self (hl.order p)
    · rw [h.procs_of_ne hqp]
      exact hl.order q

/-- A transaction asks for a lock above all those it has. -/
lemma LockInv.ordered (hl : LockInv s) : WaitsFor.Ordered s.holds s.asks Resource.rank where
  above := fun p r r' hask hhold => by
    have horder := hl.order p
    cases hx : s.procs p with
    | persistLocked dh c =>
        obtain rfl : Resource.row dh.id = r := by simpa [State.asks, hx] using hask
        cases r' with
        | advisory => exact Prod.Lex.toLex_lt_toLex.mpr (.inl Nat.one_pos)
        | _ => simp [State.holds, hx, Proc.row, Proc.lease, Proc.inserted, Proc.removed] at hhold
    | claimLocked now =>
        obtain rfl : Resource.lease = r := by simpa [State.asks, hx] using hask
        cases r' with
        | advisory => exact Prod.Lex.toLex_lt_toLex.mpr (.inl Nat.one_pos)
        | _ => simp [State.holds, hx, Proc.row, Proc.lease, Proc.inserted, Proc.removed] at hhold
    | inserting dh c todo ins =>
        cases todo with
        | nil => simp [State.asks, hx] at hask
        | cons t todo =>
            obtain rfl : Resource.index t.1 = r := by simpa [State.asks, hx] using hask
            rw [hx] at horder
            cases r' with
            | advisory => exact Prod.Lex.toLex_lt_toLex.mpr (.inl Nat.two_pos)
            | row d => exact Prod.Lex.toLex_lt_toLex.mpr (.inl Nat.one_lt_two)
            | lease => simp [State.holds, hx, Proc.lease] at hhold
            | index fp =>
                obtain ⟨k, hk, rfl⟩ : ∃ k ∈ ins, k.fingerprint = fp := by
                  simpa [State.holds, hx, Proc.inserted, Proc.removed] using hhold
                exact Prod.Lex.toLex_lt_toLex.mpr (.inr ⟨rfl, horder.2 k hk t List.mem_cons_self⟩)
    | _ =>
        -- the other activities that ask for a lock have none
        cases r' <;> simp_all [State.asks, State.holds, Proc.advisory, Proc.row, Proc.lease,
          Proc.inserted, Proc.removed]

/-- The waits-for relation is part of the one that forgets the modes. -/
lemma LockInv.edge (hl : LockInv s) (h : s.WaitsFor p q) :
    WaitsFor.Edge s.holds s.asks (fun p => s.queue.idxOf p) p q := by
  obtain ⟨hne, r, hask, hblock⟩ := h
  refine ⟨r, hask, ?_⟩
  cases r with
  | advisory =>
      obtain ⟨m, m', hreq, -, hadv | ⟨⟨ahead, behind, hqueue, hq⟩, hreq'⟩⟩ := hblock
      · exact .inl (by simp [State.holds, hadv])
      · refine .inr ⟨?_, ?_⟩
        · cases hx : s.procs q <;> simp_all [State.asks, Proc.requested]
        · have hnodup := hl.nodup
          rw [hqueue] at hnodup ⊢
          have hp : p ∉ ahead := fun hp => (List.nodup_append.mp hnodup).2.2 p hp p (by simp) rfl
          show List.idxOf q _ < List.idxOf p _
          rw [List.idxOf_append_of_mem hq, List.idxOf_append_of_notMem hp, List.idxOf_cons_self,
            Nat.add_zero]
          exact List.idxOf_lt_length_of_mem hq
  | _ => exact .inl hblock

/-- **The waits-for relation is acyclic.** -/
lemma LockInv.acyclic (hl : LockInv s) : WaitsFor.Acyclic s.WaitsFor := fun p hp =>
  hl.ordered.acyclic _ p (Relation.TransGen.mono (fun _ _ => hl.edge) p p hp)

/-! ### Progress -/

/-- A step that is neither a failure nor a death. -/
def Event.Forward : Event → Prop
  | persistError _ | foreignKeyViolation | raised _ | crashed => False
  | _ => True

lemma Inv.rowOf_eq (hinv : Inv s) {r : DiscoveryHistory}
    (hr : r ∈ s.store.discoveryHistory) : s.store.rowOf r.uuid = some r.id := by
  rw [Store.rowOf]
  cases hfind : s.store.discoveryHistory.find? fun r' => r'.uuid = r.uuid with
  | none => simpa using List.find?_eq_none.mp hfind r hr
  | some r' =>
      have huuid : r'.uuid = r.uuid := by simpa using List.find?_some hfind
      rw [Rows.eq_of_key_eq hinv.consistent.historyUuid (List.mem_of_find?_eq_some hfind) hr huuid]
      rfl

/-- A request that waits for nobody is granted. -/
lemma LockInv.grantable (hl : LockInv s) {m : Mode} (hreq : (s.procs p).requested = some m)
    (hask : s.asks p = some .advisory) (hfree : ∀ q, ¬ s.WaitsFor p q) :
    ∃ ahead behind, s.queue = ahead ++ p :: behind ∧ s.Grantable p m ahead := by
  obtain ⟨ahead, behind, hqueue⟩ := List.append_of_mem ((hl.queue p).mpr (by simp [hreq]))
  have hnodup := hl.nodup
  rw [hqueue] at hnodup
  refine ⟨ahead, behind, hqueue, fun q hq m' hadv hc => ?_, fun q hq m' hreq' hc => ?_⟩
  · exact hfree q ⟨hq, .advisory, hask, m, m', hreq, hc, .inl hadv⟩
  · have hne : q ≠ p := (List.nodup_append.mp hnodup).2.2 q hq p (by simp)
    exact hfree q ⟨hne, .advisory, hask, m, m', hreq, hc, .inr ⟨⟨ahead, behind, hqueue, hq⟩, hreq'⟩⟩

lemma rowFree_of_not_waiting {d : ℕ} (hask : s.asks p = some (.row d))
    (hfree : ∀ q, ¬ s.WaitsFor p q) : s.RowFree p d :=
  fun q hq hrow => hfree q ⟨hq, .row d, hask, hrow⟩

lemma indexFree_of_not_waiting {fp : String} (hask : s.asks p = some (.index fp))
    (hfree : ∀ q, ¬ s.WaitsFor p q) : s.IndexFree p fp :=
  fun q hq => ⟨fun c hc hfp => hfree q ⟨hq, .index fp, hask, .inl ⟨c, hc, hfp⟩⟩,
    fun c hc hfp hmem => hfree q ⟨hq, .index fp, hask, .inr ⟨c, hc, hfp, hmem⟩⟩⟩

lemma leaseFree_of_not_waiting (hask : s.asks p = some .lease) (hfree : ∀ q, ¬ s.WaitsFor p q) :
    s.LeaseFree p := fun q hq => by
  cases hlease : (s.procs q).lease with
  | false => rfl
  | true => exact absurd ⟨hq, .lease, hask, hlease⟩ (hfree q)

/-- **A transaction that waits for nobody can take its next step.** -/
theorem Inv.exists_step_of_not_waiting (hinv : Inv s) (hl : LockInv s)
    (hx : (s.procs p).inTransaction) (hfree : ∀ q, ¬ s.WaitsFor p q) :
    ∃ e s', Step cfg s (p, e) s' ∧ e.Forward := by
  have hok := hinv.ok p
  cases hp : s.procs p with
  | createBegun request =>
      cases hkind : validateDiscoveryKind request.kind with
      | error e => exact ⟨_, _, .createRefuse hp (.inl ⟨e, hkind⟩), trivial⟩
      | ok _ =>
          by_cases hname : ∃ r ∈ s.store.discoveryHistory, r.name = request.name
          · exact ⟨_, _, .createRefuse hp (.inr hname), trivial⟩
          · exact ⟨_, _, .createCheck hp hkind fun r hr heq => hname ⟨r, hr, heq⟩, trivial⟩
  | createChecked request =>
      obtain ⟨uuid, hfresh⟩ := Infinite.exists_notMem_finset s.uuids.toFinset
      exact ⟨_, _, .createSave uuid hp (by simpa using hfresh), trivial⟩
  | createSaved row => exact ⟨_, _, .createCommit hp, trivial⟩
  | persistRequested dh c =>
      obtain ⟨ahead, behind, hqueue, hgrant⟩ :=
        hl.grantable (m := .shared) (by rw [hp]; rfl) (by rw [State.asks, hp]) hfree
      exact ⟨_, _, .persistLock hp hqueue hgrant, trivial⟩
  | persistLocked dh c =>
      by_cases hrow : ∃ r ∈ s.store.discoveryHistory, r.id = dh.id
      · have hask : s.asks p = some (.row dh.id) := by rw [State.asks, hp]
        exact ⟨_, _, .selectForUpdate hp hrow (rowFree_of_not_waiting hask hfree), trivial⟩
      · exact ⟨_, _, .selectAbsent hp fun r hr heq => hrow ⟨r, hr, heq⟩, trivial⟩
  | persistAbsent dh => exact ⟨_, _, .absentCommit hp, trivial⟩
  | inserting dh c todo ins =>
      cases todo with
      | nil => exact ⟨_, _, .selectIds hp, trivial⟩
      | cons t todo =>
          have hask : s.asks p = some (.index t.1) := by rw [State.asks, hp]
          have hindex := indexFree_of_not_waiting hask hfree
          by_cases hconflict : ∃ cert ∈ s.visible p, cert.fingerprint = t.1
          · exact ⟨_, _, .insertConflict hp hconflict hindex, trivial⟩
          · exact ⟨_, _, .insertNew hp (fun k hk heq => hconflict ⟨k, hk, heq⟩) hindex, trivial⟩
  | selected dh c ins ids =>
      rw [hp] at hok
      have hknows : ∀ fp ∈ fingerprints c.totalCertificates, ∃ id, Dict.get? ids fp = some id ∧
        ∃ k ∈ s.store.certificate ++ ins, k.id = id ∧ k.fingerprint = fp := hok.knows
      let uuids : List UUID := List.replicate c.totalCertificates.length 0
      obtain ⟨links, hlinks⟩ := exists_discoveryCertificates dh.id s.linkSeq uuids c.cas_ne_nil
        fun fp hfp => (hknows fp hfp).imp fun _ h => h.1
      exact ⟨_, _, .link uuids hp List.length_replicate hlinks, trivial⟩
  | linked dh c ins links =>
      rw [hp] at hok
      exact ⟨_, _, .save hp (hok.row dh.id rfl), trivial⟩
  | saved dh c ins links => exact ⟨_, _, .persistCommit hp (hinv.linksOk hp), trivial⟩
  | failing dh reason =>
      by_cases hrow : ∃ r ∈ s.store.discoveryHistory, r.uuid = dh.uuid
      · obtain ⟨r, hr, huuid⟩ := hrow
        have hask : s.asks p = some (.row r.id) := by
          simp only [State.asks, hp, ← huuid, hinv.rowOf_eq hr, Option.map_some]
        exact ⟨_, _, .failUpdate hp ⟨r, hr, huuid, rowFree_of_not_waiting hask hfree⟩, trivial⟩
      · exact ⟨_, _, .failAbsent hp fun r hr heq => hrow ⟨r, hr, heq⟩, trivial⟩
  | failedUpdated dh reason => exact ⟨_, _, .failCommit hp, trivial⟩
  | deleteBegun uuid =>
      by_cases hrow : ∃ r ∈ s.store.discoveryHistory, r.uuid = uuid
      · obtain ⟨r, hr, huuid⟩ := hrow
        have hask : s.asks p = some (.row r.id) := by
          simp only [State.asks, hp, ← huuid, hinv.rowOf_eq hr, Option.map_some]
        exact ⟨_, _, .deleteLock r hp hr huuid (rowFree_of_not_waiting hask hfree), trivial⟩
      · exact ⟨_, _, .deleteMissing hp fun r hr heq => hrow ⟨r, hr, heq⟩, trivial⟩
  | deleteLocked dh => exact ⟨_, _, .deleteCascade hp, trivial⟩
  | deleteCascaded dh dropped => exact ⟨_, _, .deleteRow hp, trivial⟩
  | deleteDeleted dh dropped => exact ⟨_, _, .deleteCommit hp (hinv.deleteOk hp), trivial⟩
  | claimBegun now =>
      by_cases hgrant : s.queue = [] ∧ s.Grantable p .exclusive []
      · exact ⟨_, _, .claimLock hp hgrant.1 hgrant.2, trivial⟩
      · exact ⟨_, _, .claimBusy hp hgrant, trivial⟩
  | claimLocked now =>
      have hask : s.asks p = some .lease := by rw [State.asks, hp]
      exact ⟨_, _, .claimRead hp (leaseFree_of_not_waiting hask hfree), trivial⟩
  | claimRead now st =>
      by_cases hdue : leaseDue cfg now st
      · exact ⟨_, _, .claimSave hp hdue, trivial⟩
      · exact ⟨_, _, .claimNotDue hp hdue, trivial⟩
  | claimSaved now st => exact ⟨_, _, .claimBound hp, trivial⟩
  | claimBounded now st bound => exact ⟨_, _, .claimCommit hp, trivial⟩
  | batchRequested bound n =>
      obtain ⟨ahead, behind, hqueue, hgrant⟩ :=
        hl.grantable (m := .exclusive) (by rw [hp]; rfl) (by rw [State.asks, hp]) hfree
      exact ⟨_, _, .batchLock hp hqueue hgrant, trivial⟩
  | batchLocked bound n =>
      refine ⟨_, _, .batchDelete ((s.store.orphanIds bound).take cfg.batchSize) hp
        (List.take_sublist _ _).subperm List.length_take, trivial⟩
  | batchDeleted bound n ids =>
      have hfk := hinv.removeOk hp
      by_cases hmore : cfg.batchSize ≤ ids.length
      · exact ⟨_, _, .batchCommit hp hfk hmore, trivial⟩
      · exact ⟨_, _, .batchLast hp hfk (by omega), trivial⟩
  | _ => simp [hp, Proc.inTransaction] at hx

/-! ### Deadlock freedom over every run -/

/-- Only transactions are waited for. -/
lemma inTransaction_of_waitsFor (h : s.WaitsFor p q) : (s.procs q).inTransaction := by
  obtain ⟨-, r, -, hblock⟩ := h
  cases r with
  | advisory =>
      obtain ⟨m, m', -, -, hadv | ⟨-, hreq⟩⟩ := hblock
      · cases hx : s.procs q <;> simp_all [Proc.advisory, Proc.inTransaction]
      · cases hx : s.procs q <;> simp_all [Proc.requested, Proc.inTransaction]
  | _ =>
      cases hx : s.procs q <;> simp_all [State.Blocks, State.holds, Proc.row, Proc.lease,
        Proc.inserted, Proc.removed, Proc.inTransaction]

/-- Only activities that have taken a step have begun. -/
lemma exists_mem_of_not_idle (h₀ : Initial s₀) (hr : Runs cfg s₀ tr s)
    (hx : s.procs p ≠ .idle) : p ∈ tr.map Prod.fst := by
  induction hr with
  | refl => exact absurd (h₀.procs p) hx
  | @tail tr e t t' hr hst ih =>
      rw [List.map_append]
      by_cases hp : p = e.1
      · exact List.mem_append_right _ (by simp [hp])
      · rw [hst.procs_of_ne hp] at hx
        exact List.mem_append_left _ (ih hx)

lemma Initial.lockInv (h : Initial s) : LockInv s where
  nodup := by simp [h.queue]
  queue := fun p => by simp [h.queue, h.procs p, Proc.requested]
  order := fun p => by rw [h.procs p]; trivial

/-- No deadlock: the waits-for relation is acyclic, and whenever a transaction
is open, an open one can take its next step. -/
structure DeadlockFree (cfg : Settings) (s : State) : Prop where
  acyclic : WaitsFor.Acyclic s.WaitsFor
  progress : ∀ p, (s.procs p).inTransaction →
    ∃ q e s', (s.procs q).inTransaction ∧ Step cfg s (q, e) s' ∧ e.Forward

/-- **Discoveries, deletes and sweeps do not deadlock.** -/
theorem deadlockFree_of_runs (h₀ : Initial s₀) (hr : Runs cfg s₀ tr s) : DeadlockFree cfg s := by
  have hinv := h₀.inv.run hr
  have hl : LockInv s := hr.invariant (fun _ _ _ hl hst => hl.step hst) h₀.lockInv
  refine ⟨hl.acyclic, fun p hp => ?_⟩
  have hfin : {q | (s.procs q).inTransaction}.Finite :=
    (List.finite_toSet (tr.map Prod.fst)).subset fun q hq =>
      exists_mem_of_not_idle h₀ hr fun hidle => by simp [hidle, Proc.inTransaction] at hq
  obtain ⟨q, hq, hsink⟩ := hl.acyclic.exists_sink hfin ⟨p, hp⟩
  obtain ⟨e, s', hst, hforward⟩ := (hinv.exists_step_of_not_waiting hl hq fun u hu =>
    hsink u (inTransaction_of_waitsFor hu) hu : ∃ e s', Step cfg s (q, e) s' ∧ e.Forward)
  exact ⟨q, e, s', hq, hst, hforward⟩

/-- The second of two discoveries waits for the index entry of the first. -/
lemma waitingState_waitsFor : waitingState.WaitsFor 1 0 :=
  ⟨by decide, .index (certificateFingerprint "abc"), rfl,
    .inl ⟨⟨2, certificateFingerprint "abc", "abc"⟩,
      show _ ∈ pairCertificates from by simp [pairCertificates], rfl⟩⟩

theorem deadlockFree_sample :
    Runs ⟨3600, 500⟩ emptyState (overlapCollection ++ overlapInsertion) waitingState ∧
    waitingState.WaitsFor 1 0 ∧ DeadlockFree ⟨3600, 500⟩ waitingState := by
  have h := overlap_waits ⟨3600, 500⟩
  exact ⟨h.runs, waitingState_waitsFor, deadlockFree_of_runs emptyState_initial h.runs⟩

end AdcsConnector
