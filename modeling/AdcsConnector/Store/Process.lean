/-
The state of the connector as its database sees it: the committed store, and
for each request, thread or sweep where it stands between two statements, with
what its open transaction has locked and written but not committed.

* `Proc`: the activities. `start_discovery` creates a discovery and turns into
  its `run_discovery` thread; a DELETE request; a call of `run_cleanup_once`.
  There may be any number of each, one `Pid` per activity;
* `Proc.advisory`, `Proc.requested`, `Proc.row`, `Proc.lease`, `Proc.inserted`,
  `Proc.removed`: the locks and the uncommitted writes of an activity. All
  of them last to the end of its transaction;
* `State`: the store, the sequences, the uuids drawn, the queue of the advisory
  lock and the activities.
-/
import AdcsConnector.Persistence

namespace AdcsConnector

/-! ### Locks -/

/-- The two modes of the transaction-scoped advisory lock. -/
inductive Mode where
  | shared
  | exclusive
  deriving DecidableEq

/-- Two modes that two transactions cannot hold at once. -/
def Mode.Conflicts (m m' : Mode) : Prop := m = .exclusive ∨ m' = .exclusive

instance (m m' : Mode) : Decidable (m.Conflicts m') :=
  inferInstanceAs (Decidable (m = .exclusive ∨ m' = .exclusive))

lemma Mode.Conflicts.symm {m m' : Mode} (h : m.Conflicts m') : m'.Conflicts m := Or.symm h

/-! ### Activities -/

/-- The settings of the cleanup sweep; any integers. -/
structure Settings where
  cleanupIntervalSeconds : ℤ
  cleanupBatchSize : ℤ

/-- `max(1, settings.CERTIFICATE_CLEANUP_BATCH_SIZE)`. -/
def Settings.batchSize (cfg : Settings) : ℕ := (max 1 cfg.cleanupBatchSize).toNat

lemma Settings.batchSize_pos (cfg : Settings) : 1 ≤ cfg.batchSize := by
  rw [Settings.batchSize]
  omega

/-- The part of a discovery request that the database sees. -/
structure DiscoveryRequest where
  name : String
  kind : String

/-- `validate_discovery_kind`. -/
def validateDiscoveryKind (kind : String) : Except PyError Unit :=
  if kind = "PyADCS-WinRM" then .ok ()
  else .error (.valueError ("Unrecognized discovery kind: " ++ kind))

/-- Where an activity stands. A state between BEGIN and the end of a transaction
carries the local variables and the uncommitted writes of that transaction. -/
inductive Proc where
  /-- nothing requested yet -/
  | idle
  /-- `create_discovery_history`: the transaction is open -/
  | createBegun (request : DiscoveryRequest)
  /-- the name was not taken -/
  | createChecked (request : DiscoveryRequest)
  /-- the row is inserted -/
  | createSaved (row : DiscoveryHistory)
  /-- `run_discovery` is started with the uuid of the committed row -/
  | threadStarted (row : DiscoveryHistory)
  /-- the object is loaded; the WinRM collection is running -/
  | collecting (dh : DiscoveryHistory)
  /-- the collection is done; no transaction is open -/
  | collected (dh : DiscoveryHistory) (c : Collected)
  /-- `pg_advisory_xact_lock_shared` waits in the queue -/
  | persistRequested (dh : DiscoveryHistory) (c : Collected)
  /-- the shared lock is granted -/
  | persistLocked (dh : DiscoveryHistory) (c : Collected)
  /-- `select_for_update` found no row: the block is left at once -/
  | persistAbsent (dh : DiscoveryHistory)
  /-- the history row is locked; the bulk insert of the certificates has
  `todo` left and has inserted `inserted` -/
  | inserting (dh : DiscoveryHistory) (c : Collected) (todo : List (String × String))
      (inserted : List Certificate)
  /-- `id_by_fp` is read -/
  | selected (dh : DiscoveryHistory) (c : Collected) (inserted : List Certificate)
      (ids : List (String × ℕ))
  /-- the links are inserted -/
  | linked (dh : DiscoveryHistory) (c : Collected) (inserted : List Certificate)
      (links : List DiscoveryCertificate)
  /-- the status is updated -/
  | saved (dh : DiscoveryHistory) (c : Collected) (inserted : List Certificate)
      (links : List DiscoveryCertificate)
  /-- the persistence is committed and the thread over -/
  | completed (dh : DiscoveryHistory) (c : Collected)
  /-- the exception handler of `run_discovery` -/
  | failing (dh : DiscoveryHistory) (reason : String)
  /-- the filtered update to FAILED has matched the row -/
  | failedUpdated (dh : DiscoveryHistory) (reason : String)
  /-- a DELETE request: the transaction is open -/
  | deleteBegun (uuid : UUID)
  /-- the history row is locked -/
  | deleteLocked (dh : DiscoveryHistory)
  /-- the cascade has deleted the links with ids `dropped` -/
  | deleteCascaded (dh : DiscoveryHistory) (dropped : List ℕ)
  /-- the history row is deleted -/
  | deleteDeleted (dh : DiscoveryHistory) (dropped : List ℕ)
  /-- `_claim_lease`: the transaction is open since `now` -/
  | claimBegun (now : ℤ)
  /-- the exclusive lock is held -/
  | claimLocked (now : ℤ)
  /-- the state row is read FOR UPDATE -/
  | claimRead (now : ℤ) (state : Option CertificateCleanupState)
  /-- the lease is claimed -/
  | claimSaved (now : ℤ) (state : CertificateCleanupState)
  /-- the highest certificate id is read -/
  | claimBounded (now : ℤ) (state : CertificateCleanupState) (maxCertificateId : ℕ)
  /-- the loop of `run_cleanup_once`, between two batches -/
  | sweeping (maxCertificateId deleted : ℕ)
  /-- `pg_advisory_xact_lock` waits in the queue -/
  | batchRequested (maxCertificateId deleted : ℕ)
  /-- the exclusive lock is granted -/
  | batchLocked (maxCertificateId deleted : ℕ)
  /-- the certificates with ids `ids` are deleted -/
  | batchDeleted (maxCertificateId deleted : ℕ) (ids : List ℕ)
  /-- `run_cleanup_once` has returned `deleted` -/
  | swept (deleted : ℕ)
  /-- `run_cleanup_once` has returned `None` -/
  | skipped
  /-- over, with nothing left open -/
  | ended

namespace Proc

/-- The mode in which the advisory lock is held. -/
def advisory : Proc → Option Mode
  | persistLocked .. | persistAbsent .. | inserting .. | selected .. | linked .. | saved .. =>
      some .shared
  | claimLocked .. | claimRead .. | claimSaved .. | claimBounded .. | batchLocked ..
  | batchDeleted .. => some .exclusive
  | _ => none

/-- The mode in which the advisory lock is waited for. -/
def requested : Proc → Option Mode
  | persistRequested .. => some .shared
  | batchRequested .. => some .exclusive
  | _ => none

/-- The id of the history row locked. -/
def row : Proc → Option ℕ
  | inserting dh .. | selected dh .. | linked dh .. | saved dh .. | failedUpdated dh ..
  | deleteLocked dh | deleteCascaded dh .. | deleteDeleted dh .. => some dh.id
  | _ => none

/-- Whether the row of the cleanup state is locked. -/
def lease : Proc → Bool
  | claimRead .. | claimSaved .. | claimBounded .. => true
  | _ => false

/-- The certificates inserted and not committed: their fingerprints are the
uncommitted entries of the unique index. -/
def inserted : Proc → List Certificate
  | inserting _ _ _ ins | selected _ _ ins _ | linked _ _ ins _ | saved _ _ ins _ => ins
  | _ => []

/-- The links inserted and not committed. -/
def links : Proc → List DiscoveryCertificate
  | linked _ _ _ links | saved _ _ _ links => links
  | _ => []

/-- The ids of the certificates deleted and not committed. -/
def removed : Proc → List ℕ
  | batchDeleted _ _ ids => ids
  | _ => []

/-- The discovery object of a thread that has loaded it and is inside the `try`
of `run_discovery`. -/
def tried : Proc → Option DiscoveryHistory
  | collecting dh | collected dh _ | persistRequested dh _ | persistLocked dh _
  | persistAbsent dh | inserting dh .. | selected dh .. | linked dh .. | saved dh .. => some dh
  | _ => none

/-- An activity in an open transaction; the FAILED update is one of its own. -/
def inTransaction : Proc → Bool
  | idle | threadStarted .. | collecting .. | collected .. | completed .. | sweeping .. | swept ..
  | skipped | ended => false
  | _ => true

/-- An activity that has neither ended nor not begun. -/
def active : Proc → Bool
  | idle | completed .. | swept .. | skipped | ended => false
  | _ => true

end Proc

/-! ### States -/

/-- The name of an activity. -/
abbrev Pid := ℕ

/-- A state of the system. The sequences and the uuids drawn are not
transactional: a rolled back transaction does not give its values back. -/
structure State where
  store : Store
  certificateSeq : ℕ
  historySeq : ℕ
  linkSeq : ℕ
  cleanupSeq : ℕ
  uuids : List UUID
  queue : List Pid
  procs : Pid → Proc

namespace State

/-- The state with one activity moved on. -/
def set (s : State) (p : Pid) (x : Proc) : State := { s with procs := Function.update s.procs p x }

variable (s : State) (p q : Pid) (x : Proc)

@[simp] lemma set_store : (s.set p x).store = s.store := rfl
@[simp] lemma set_certificateSeq : (s.set p x).certificateSeq = s.certificateSeq := rfl
@[simp] lemma set_historySeq : (s.set p x).historySeq = s.historySeq := rfl
@[simp] lemma set_linkSeq : (s.set p x).linkSeq = s.linkSeq := rfl
@[simp] lemma set_cleanupSeq : (s.set p x).cleanupSeq = s.cleanupSeq := rfl
@[simp] lemma set_uuids : (s.set p x).uuids = s.uuids := rfl
@[simp] lemma set_queue : (s.set p x).queue = s.queue := rfl
@[simp] lemma set_procs_self : (s.set p x).procs p = x := Function.update_self ..
lemma set_procs_of_ne {p q : Pid} (h : q ≠ p) : (s.set p x).procs q = s.procs q :=
  Function.update_of_ne h ..

/-- The certificates an activity sees: the committed ones and its own. -/
def visible : List Certificate := s.store.certificate ++ (s.procs p).inserted

/-- The advisory lock can be given to `p` in mode `m`, `ahead` being the
requests before it in the queue: no other activity holds it in a conflicting
mode, and no request ahead is for one. -/
def Grantable (m : Mode) (ahead : List Pid) : Prop :=
  (∀ q, q ≠ p → ∀ m', (s.procs q).advisory = some m' → ¬ m.Conflicts m') ∧
    ∀ q ∈ ahead, ∀ m', (s.procs q).requested = some m' → ¬ m.Conflicts m'

/-- No other activity has locked the history row `d`. -/
def RowFree (d : ℕ) : Prop := ∀ q, q ≠ p → (s.procs q).row ≠ some d

/-- No other activity has an uncommitted entry for the fingerprint, inserted or
deleted. -/
def IndexFree (fp : String) : Prop :=
  ∀ q, q ≠ p → (∀ c ∈ (s.procs q).inserted, c.fingerprint ≠ fp) ∧
    ∀ c ∈ s.store.certificate, c.fingerprint = fp → c.id ∉ (s.procs q).removed

/-- No other activity has locked the cleanup state. -/
def LeaseFree : Prop := ∀ q, q ≠ p → (s.procs q).lease = false

end State

end AdcsConnector
