/-
The steps of the system: one statement of one activity: PostgreSQL at READ COMMITTED, where every
statement sees what is committed when it runs together with the writes of its
own transaction.

A statement that must wait for a lock is a step that is not enabled until the
lock is free. `SELECT ... FOR UPDATE` and `UPDATE` look at the row again once
they have its lock, so their answer is that of the moment the lock is had. A
commit applies the writes of the transaction to the store at once, after the
deferred foreign keys are checked. Any transaction may be rolled back at any
statement: an exception inside the `try` of `run_discovery` leads to its
handler (`raise`), everything else ends the activity (`crash`).
-/
import AdcsConnector.Library.Runs
import AdcsConnector.Store.Process

namespace AdcsConnector

/-! ### What the commits do to the store -/

namespace Store

variable (s : Store)

/-- `create_discovery_history`. -/
def addHistory (row : DiscoveryHistory) : Store :=
  { s with discoveryHistory := s.discoveryHistory ++ [row] }

/-- `dh.status = COMPLETED; dh.save(update_fields=["status"])`. -/
def completeRow (d : ℕ) (h : DiscoveryHistory) : DiscoveryHistory :=
  if h.id = d then { h with status := DiscoveryStatus.completed.value } else h

/-- The persistence transaction of discovery `d`. -/
def persist (d : ℕ) (inserted : List Certificate) (links : List DiscoveryCertificate) : Store :=
  { s with
    certificate := s.certificate ++ inserted
    discoveryHistory := s.discoveryHistory.map (completeRow d)
    discoveryCertificate := s.discoveryCertificate ++ links }

/-- `filter(uuid=...).update(status=FAILED, meta=[...])`, on one row. -/
def failRow (uuid : UUID) (reason : String) (h : DiscoveryHistory) : DiscoveryHistory :=
  if h.uuid = uuid then
    { h with
      status := DiscoveryStatus.failed.value
      metadata := some [failedReasonMetadataAttribute reason] }
  else h

/-- The FAILED update. -/
def fail (uuid : UUID) (reason : String) : Store :=
  { s with discoveryHistory := s.discoveryHistory.map (failRow uuid reason) }

/-- The cascading delete of discovery `d`, `dropped` being the ids of its links
that the cascade has matched. -/
def deleteHistory (d : ℕ) (dropped : List ℕ) : Store :=
  { s with
    discoveryHistory := s.discoveryHistory.filter fun h => h.id ≠ d
    discoveryCertificate := s.discoveryCertificate.filter fun l =>
      ¬ (l.discoveryId = d ∧ l.id ∈ dropped) }

/-- `state.save()`: an UPDATE by primary key, an INSERT when no row matched. -/
def saveState (st : CertificateCleanupState) : Store :=
  { s with
    certificateCleanupState :=
      if ∃ r ∈ s.certificateCleanupState, r.id = st.id then
        s.certificateCleanupState.map fun r => if r.id = st.id then st else r
      else s.certificateCleanupState ++ [st] }

/-- One batch of the sweep. -/
def removeCertificates (ids : List ℕ) : Store :=
  { s with certificate := s.certificate.filter fun c => c.id ∉ ids }

/-- `order_by("pk").first()` on the cleanup state. -/
def firstState : Option CertificateCleanupState :=
  (s.certificateCleanupState.insertionSort fun r r' => r.id ≤ r'.id).head?

/-- `SELECT coalesce(max(id), 0)`. -/
def maxCertificateId : ℕ := (s.certificate.map (·.id)).foldr max 0

/-- The ids that the subselect of the batch can return, before its LIMIT. -/
def orphanIds (bound : ℕ) : List ℕ :=
  (s.certificate.filter fun c => decide (c.id ≤ bound) && decide (s.Orphan c.id)).map (·.id)

/-- The deferred foreign keys of new links. -/
def LinksOk (links : List DiscoveryCertificate) : Prop :=
  ∀ l ∈ links, (∃ c ∈ s.certificate, c.id = l.certificateId) ∧
    ∃ h ∈ s.discoveryHistory, h.id = l.discoveryId

end Store

/-- Whether the lease is due: no state row, no earlier run, or one at least an
interval ago. -/
def leaseDue (cfg : Settings) (now : ℤ) (state : Option CertificateCleanupState) : Prop :=
  ∀ st ∈ state, ∀ last ∈ st.lastRunAt, ¬ now - last < cfg.cleanupIntervalSeconds

instance (cfg : Settings) (now : ℤ) (state : Option CertificateCleanupState) :
    Decidable (leaseDue cfg now state) :=
  inferInstanceAs (Decidable (∀ st ∈ state, ∀ last ∈ st.lastRunAt,
    ¬ now - last < cfg.cleanupIntervalSeconds))

/-- The row `_claim_lease` saves: the row read with the new time, or a new row. -/
def claimedState (now : ℤ) (fresh : ℕ) : Option CertificateCleanupState → CertificateCleanupState
  | some st => { st with lastRunAt := some now }
  | none => ⟨fresh, some now⟩

/-! ### Steps -/

/-- What a step does that others can observe. -/
inductive Event where
  /-- a statement inside a transaction, or between transactions -/
  | statement
  /-- the collection of a thread asked the host for one more page -/
  | paged
  /-- `create_discovery_history` committed its row -/
  | created (row : DiscoveryHistory)
  /-- the persistence transaction of discovery `d` committed -/
  | persisted (d : ℕ) (inserted : List Certificate) (links : List DiscoveryCertificate)
  /-- a persistence statement raised by itself: `id_by_fp[fp]` or `cas[0]` when
  the links are built, `save` when its row is gone -/
  | persistError (e : PyError)
  /-- a deferred foreign key was violated at COMMIT -/
  | foreignKeyViolation
  /-- an exception inside the `try` of `run_discovery` -/
  | raised (reason : String)
  /-- the FAILED update of discovery `d` committed -/
  | failed (d : ℕ) (uuid : UUID) (reason : String)
  /-- the DELETE of discovery `d` committed -/
  | deleted (d : ℕ) (dropped : List ℕ)
  /-- a claim of the lease committed -/
  | claimed (now : ℤ) (maxCertificateId : ℕ) (state : CertificateCleanupState)
  /-- `run_cleanup_once` returned `None` -/
  | skipped
  /-- a batch committed; `returned` is the result of `run_cleanup_once` when it
  was the last one -/
  | batch (ids : List ℕ) (returned : Option ℕ)
  /-- the activity died, its transaction rolled back -/
  | crashed

/-- What the event does to the store: a commit applies the writes of its
transaction, every other step leaves the store as it is. -/
def Event.commit : Event → Store → Store
  | created row, s => s.addHistory row
  | persisted d inserted links, s => s.persist d inserted links
  | failed _ uuid reason, s => s.fail uuid reason
  | deleted d dropped, s => s.deleteHistory d dropped
  | claimed _ _ st, s => s.saveState st
  | batch ids _, s => s.removeCertificates ids
  | _, s => s

/-- One step of one activity. -/
inductive Step (cfg : Settings) : State → Pid × Event → State → Prop
  -- start_discovery
  | createBegin {s p} (request : DiscoveryRequest) (h : s.procs p = .idle) :
      Step cfg s (p, .statement) (s.set p (.createBegun request))
  | createCheck {s p request} (h : s.procs p = .createBegun request)
      (hkind : validateDiscoveryKind request.kind = .ok ())
      (hname : ∀ r ∈ s.store.discoveryHistory, r.name ≠ request.name) :
      Step cfg s (p, .statement) (s.set p (.createChecked request))
  | createRefuse {s p request} (h : s.procs p = .createBegun request)
      (hrefuse : (∃ e, validateDiscoveryKind request.kind = .error e) ∨
        ∃ r ∈ s.store.discoveryHistory, r.name = request.name) :
      Step cfg s (p, .statement) (s.set p .ended)
  | createSave {s p request} (uuid : UUID) (h : s.procs p = .createChecked request)
      (hfresh : uuid ∉ s.uuids) :
      Step cfg s (p, .statement)
        (State.set { s with historySeq := s.historySeq + 1, uuids := uuid :: s.uuids } p
          (.createSaved ⟨s.historySeq, uuid, request.name, DiscoveryStatus.inProgress.value, none⟩))
  | createCommit {s p row} (h : s.procs p = .createSaved row) :
      Step cfg s (p, .created row)
        (State.set { s with store := s.store.addHistory row } p (.threadStarted row))
  -- run_discovery
  | threadGet {s p row} (dh : DiscoveryHistory) (h : s.procs p = .threadStarted row)
      (hdh : dh ∈ s.store.discoveryHistory) (huuid : dh.uuid = row.uuid) :
      Step cfg s (p, .statement) (s.set p (.collecting dh))
  | threadGone {s p row} (h : s.procs p = .threadStarted row)
      (hgone : ∀ r ∈ s.store.discoveryHistory, r.uuid ≠ row.uuid) :
      Step cfg s (p, .statement) (s.set p .ended)
  -- nothing bounds the pages: see the loop of `identify_with_base64`
  | page {s p dh} (h : s.procs p = .collecting dh) :
      Step cfg s (p, .paged) (s.set p (.collecting dh))
  | collect {s p dh} (c : Collected) (h : s.procs p = .collecting dh) :
      Step cfg s (p, .statement) (s.set p (.collected dh c))
  | persistBegin {s p dh c} (h : s.procs p = .collected dh c) :
      Step cfg s (p, .statement)
        (State.set { s with queue := s.queue ++ [p] } p (.persistRequested dh c))
  | persistLock {s p dh c ahead behind} (h : s.procs p = .persistRequested dh c)
      (hqueue : s.queue = ahead ++ p :: behind) (hgrant : s.Grantable p .shared ahead) :
      Step cfg s (p, .statement)
        (State.set { s with queue := ahead ++ behind } p (.persistLocked dh c))
  | selectForUpdate {s p dh c} (h : s.procs p = .persistLocked dh c)
      (hrow : ∃ r ∈ s.store.discoveryHistory, r.id = dh.id) (hfree : s.RowFree p dh.id) :
      Step cfg s (p, .statement)
        (s.set p (.inserting dh c (newCertificates c.totalCertificates) []))
  | selectAbsent {s p dh c} (h : s.procs p = .persistLocked dh c)
      (hrow : ∀ r ∈ s.store.discoveryHistory, r.id ≠ dh.id) :
      Step cfg s (p, .statement) (s.set p (.persistAbsent dh))
  | absentCommit {s p dh} (h : s.procs p = .persistAbsent dh) :
      Step cfg s (p, .statement) (s.set p .ended)
  | insertConflict {s p dh c fp content todo ins}
      (h : s.procs p = .inserting dh c ((fp, content) :: todo) ins)
      (hconflict : ∃ cert ∈ s.visible p, cert.fingerprint = fp) (hfree : s.IndexFree p fp) :
      Step cfg s (p, .statement)
        (State.set { s with certificateSeq := s.certificateSeq + 1 } p (.inserting dh c todo ins))
  | insertNew {s p dh c fp content todo ins}
      (h : s.procs p = .inserting dh c ((fp, content) :: todo) ins)
      (hnew : ∀ cert ∈ s.visible p, cert.fingerprint ≠ fp) (hfree : s.IndexFree p fp) :
      Step cfg s (p, .statement)
        (State.set { s with certificateSeq := s.certificateSeq + 1 } p
          (.inserting dh c todo (ins ++ [⟨s.certificateSeq, fp, content⟩])))
  | selectIds {s p dh c ins} (h : s.procs p = .inserting dh c [] ins) :
      Step cfg s (p, .statement)
        (s.set p (.selected dh c ins
          (idByFp (s.visible p) (Dict.keys (uniqueCertificates c.totalCertificates)))))
  | link {s p dh c ins ids links} (uuids : List UUID) (h : s.procs p = .selected dh c ins ids)
      (huuids : uuids.length = c.totalCertificates.length)
      (hlinks : discoveryCertificates dh.id c.cas ids s.linkSeq uuids c.totalCertificates
        = .ok links) :
      Step cfg s (p, .statement)
        (State.set { s with linkSeq := s.linkSeq + c.totalCertificates.length } p
          (.linked dh c ins links))
  | linkRaise {s p dh c ins ids e} (uuids : List UUID) (reason : String)
      (h : s.procs p = .selected dh c ins ids)
      (hlinks : discoveryCertificates dh.id c.cas ids s.linkSeq uuids c.totalCertificates
        = .error e) :
      Step cfg s (p, .persistError e) (s.set p (.failing dh reason))
  | save {s p dh c ins links} (h : s.procs p = .linked dh c ins links)
      (hrow : ∃ r ∈ s.store.discoveryHistory, r.id = dh.id) :
      Step cfg s (p, .statement) (s.set p (.saved dh c ins links))
  | saveRaise {s p dh c ins links} (reason : String) (h : s.procs p = .linked dh c ins links)
      (hrow : ∀ r ∈ s.store.discoveryHistory, r.id ≠ dh.id) :
      Step cfg s
        (p, .persistError (.databaseError "Save with update_fields did not affect any rows."))
        (s.set p (.failing dh reason))
  | persistCommit {s p dh c ins links} (h : s.procs p = .saved dh c ins links)
      (hfk : (s.store.persist dh.id ins links).LinksOk links) :
      Step cfg s (p, .persisted dh.id ins links)
        (State.set { s with store := s.store.persist dh.id ins links } p (.completed dh c))
  | persistViolation {s p dh c ins links} (reason : String) (h : s.procs p = .saved dh c ins links)
      (hfk : ¬ (s.store.persist dh.id ins links).LinksOk links) :
      Step cfg s (p, .foreignKeyViolation) (s.set p (.failing dh reason))
  | raise {s p dh} (reason : String) (h : (s.procs p).tried = some dh) :
      Step cfg s (p, .raised reason)
        (State.set { s with queue := s.queue.erase p } p (.failing dh reason))
  | failUpdate {s p dh reason} (h : s.procs p = .failing dh reason)
      (hrow : ∃ r ∈ s.store.discoveryHistory, r.uuid = dh.uuid ∧ s.RowFree p r.id) :
      Step cfg s (p, .statement) (s.set p (.failedUpdated dh reason))
  | failAbsent {s p dh reason} (h : s.procs p = .failing dh reason)
      (hrow : ∀ r ∈ s.store.discoveryHistory, r.uuid ≠ dh.uuid) :
      Step cfg s (p, .statement) (s.set p .ended)
  | failCommit {s p dh reason} (h : s.procs p = .failedUpdated dh reason) :
      Step cfg s (p, .failed dh.id dh.uuid reason)
        (State.set { s with store := s.store.fail dh.uuid reason } p .ended)
  -- DELETE
  | deleteBegin {s p} (uuid : UUID) (h : s.procs p = .idle) :
      Step cfg s (p, .statement) (s.set p (.deleteBegun uuid))
  | deleteLock {s p uuid} (dh : DiscoveryHistory) (h : s.procs p = .deleteBegun uuid)
      (hdh : dh ∈ s.store.discoveryHistory) (huuid : dh.uuid = uuid) (hfree : s.RowFree p dh.id) :
      Step cfg s (p, .statement) (s.set p (.deleteLocked dh))
  | deleteMissing {s p uuid} (h : s.procs p = .deleteBegun uuid)
      (hrow : ∀ r ∈ s.store.discoveryHistory, r.uuid ≠ uuid) :
      Step cfg s (p, .statement) (s.set p .ended)
  | deleteCascade {s p dh} (h : s.procs p = .deleteLocked dh) :
      Step cfg s (p, .statement)
        (s.set p (.deleteCascaded dh ((s.store.linksOf dh.id).map (·.id))))
  | deleteRow {s p dh dropped} (h : s.procs p = .deleteCascaded dh dropped) :
      Step cfg s (p, .statement) (s.set p (.deleteDeleted dh dropped))
  | deleteCommit {s p dh dropped} (h : s.procs p = .deleteDeleted dh dropped)
      (hfk : ∀ l ∈ (s.store.deleteHistory dh.id dropped).discoveryCertificate,
        l.discoveryId ≠ dh.id) :
      Step cfg s (p, .deleted dh.id dropped)
        (State.set { s with store := s.store.deleteHistory dh.id dropped } p .ended)
  | deleteViolation {s p dh dropped} (h : s.procs p = .deleteDeleted dh dropped)
      (hfk : ¬ ∀ l ∈ (s.store.deleteHistory dh.id dropped).discoveryCertificate,
        l.discoveryId ≠ dh.id) :
      Step cfg s (p, .foreignKeyViolation) (s.set p .ended)
  -- run_cleanup_once: _claim_lease
  | claimBegin {s p} (now : ℤ) (h : s.procs p = .idle) :
      Step cfg s (p, .statement) (s.set p (.claimBegun now))
  | claimLock {s p now} (h : s.procs p = .claimBegun now) (hqueue : s.queue = [])
      (hgrant : s.Grantable p .exclusive []) :
      Step cfg s (p, .statement) (s.set p (.claimLocked now))
  | claimBusy {s p now} (h : s.procs p = .claimBegun now)
      (hbusy : ¬ (s.queue = [] ∧ s.Grantable p .exclusive [])) :
      Step cfg s (p, .skipped) (s.set p .skipped)
  | claimRead {s p now} (h : s.procs p = .claimLocked now) (hfree : s.LeaseFree p) :
      Step cfg s (p, .statement) (s.set p (.claimRead now s.store.firstState))
  | claimNotDue {s p now st} (h : s.procs p = .claimRead now st) (hdue : ¬ leaseDue cfg now st) :
      Step cfg s (p, .skipped) (s.set p .skipped)
  | claimSave {s p now st} (h : s.procs p = .claimRead now st) (hdue : leaseDue cfg now st) :
      Step cfg s (p, .statement)
        (State.set { s with cleanupSeq := s.cleanupSeq + 1 } p
          (.claimSaved now (claimedState now s.cleanupSeq st)))
  | claimBound {s p now st} (h : s.procs p = .claimSaved now st) :
      Step cfg s (p, .statement) (s.set p (.claimBounded now st s.store.maxCertificateId))
  | claimCommit {s p now st bound} (h : s.procs p = .claimBounded now st bound) :
      Step cfg s (p, .claimed now bound st)
        (State.set { s with store := s.store.saveState st } p (.sweeping bound 0))
  -- run_cleanup_once: the batches
  | batchBegin {s p bound n} (h : s.procs p = .sweeping bound n) :
      Step cfg s (p, .statement)
        (State.set { s with queue := s.queue ++ [p] } p (.batchRequested bound n))
  | batchLock {s p bound n ahead behind} (h : s.procs p = .batchRequested bound n)
      (hqueue : s.queue = ahead ++ p :: behind) (hgrant : s.Grantable p .exclusive ahead) :
      Step cfg s (p, .statement)
        (State.set { s with queue := ahead ++ behind } p (.batchLocked bound n))
  | batchDelete {s p bound n} (ids : List ℕ) (h : s.procs p = .batchLocked bound n)
      (hids : ids.Subperm (s.store.orphanIds bound))
      (hlimit : ids.length = min cfg.batchSize (s.store.orphanIds bound).length) :
      Step cfg s (p, .statement) (s.set p (.batchDeleted bound n ids))
  | batchCommit {s p bound n ids} (h : s.procs p = .batchDeleted bound n ids)
      (hfk : ∀ l ∈ s.store.discoveryCertificate, l.certificateId ∉ ids)
      (hmore : cfg.batchSize ≤ ids.length) :
      Step cfg s (p, .batch ids none)
        (State.set { s with store := s.store.removeCertificates ids } p
          (.sweeping bound (n + ids.length)))
  | batchLast {s p bound n ids} (h : s.procs p = .batchDeleted bound n ids)
      (hfk : ∀ l ∈ s.store.discoveryCertificate, l.certificateId ∉ ids)
      (hlast : ids.length < cfg.batchSize) :
      Step cfg s (p, .batch ids (some (n + ids.length)))
        (State.set { s with store := s.store.removeCertificates ids } p (.swept (n + ids.length)))
  | batchViolation {s p bound n ids} (h : s.procs p = .batchDeleted bound n ids)
      (hfk : ¬ ∀ l ∈ s.store.discoveryCertificate, l.certificateId ∉ ids) :
      Step cfg s (p, .foreignKeyViolation) (s.set p .ended)
  -- any activity
  | crash {s p} (h : (s.procs p).active) :
      Step cfg s (p, .crashed) (State.set { s with queue := s.queue.erase p } p .ended)

/-- A run of the system, with the steps taken. -/
abbrev Runs (cfg : Settings) := Run (Step cfg)

/-- Discovery `d` is completed with `links` in the trace. -/
def Completes (d : ℕ) (links : List DiscoveryCertificate) (tr : List (Pid × Event)) : Prop :=
  ∃ q ins, (q, Event.persisted d ins links) ∈ tr

/-- Discovery `d` is deleted in the trace. -/
def Deletes (d : ℕ) (tr : List (Pid × Event)) : Prop :=
  ∃ q dropped, (q, Event.deleted d dropped) ∈ tr

namespace Step

variable {cfg : Settings} {s s' : State} {p q : Pid} {e : Event}

/-- A step moves one activity. -/
lemma procs_of_ne (h : Step cfg s (p, e) s') (hq : q ≠ p) : s'.procs q = s.procs q := by
  cases h <;> exact State.set_procs_of_ne _ _ hq

/-- The store changes by the writes of the event. -/
lemma store_eq (h : Step cfg s (p, e) s') : s'.store = e.commit s.store := by
  cases h <;> rfl

/-- The sequences never go back, and the uuids drawn stay drawn. -/
lemma seq_le (h : Step cfg s (p, e) s') :
    s.certificateSeq ≤ s'.certificateSeq ∧ s.historySeq ≤ s'.historySeq ∧
      s.linkSeq ≤ s'.linkSeq ∧ s.uuids ⊆ s'.uuids := by
  cases h <;> simp

end Step

end AdcsConnector
