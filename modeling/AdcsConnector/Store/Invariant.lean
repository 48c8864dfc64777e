/-
What every reachable state has in common, and what an activity knows between
two of its statements.

* `Proc.Ok`: what one activity knows about the store: a row it has locked is
  there; certificates it has inserted are new; every fingerprint of a
  persistence is still to be inserted or visible (`Proc.Knows`); the links a
  cascade has dropped are all the links of its discovery; the certificates a
  batch has deleted are orphans;
* `Proc.Compatible`: what two activities cannot have at once: conflicting
  advisory locks, the same row, the same index entry, the same discovery;
* `Inv`: a consistent store, keys below the sequences, and the two above.
-/
import AdcsConnector.Store.Consistency

namespace AdcsConnector

/-- What a link says about the certificate it was written for, as long as the
certificates `visible` are there. -/
structure LinkTo (visible : List Certificate) (d : ℕ) (cas : List AuthorityData)
    (cert : ParseResult) (link : DiscoveryCertificate) : Prop where
  discoveryId_eq : link.discoveryId = d
  certificate : ∃ k ∈ visible, k.id = link.certificateId ∧
    k.fingerprint = certificateFingerprint cert.certificate
  metadata_eq : ∃ metadata, getCertificateMeta cas cert.template = .ok metadata ∧
    link.metadata = some metadata

lemma LinkTo.mono {visible visible' : List Certificate} (hsub : visible ⊆ visible') {d : ℕ}
    {cas : List AuthorityData} {cert : ParseResult} {link : DiscoveryCertificate}
    (h : LinkTo visible d cas cert link) : LinkTo visible' d cas cert link := by
  obtain ⟨k, hk, hid, hfp⟩ := h.certificate
  exact ⟨h.discoveryId_eq, ⟨k, hsub hk, hid, hfp⟩, h.metadata_eq⟩

namespace Proc

/-! ### What an activity has at hand -/

/-- The history row inserted and not committed. -/
def created : Proc → Option DiscoveryHistory
  | createSaved row => some row
  | _ => none

/-- The discovery that an activity has created, is the thread of, or was. -/
def origin : Proc → Option DiscoveryHistory
  | createSaved row | threadStarted row => some row
  | collecting dh | collected dh _ | persistRequested dh _ | persistLocked dh _
  | persistAbsent dh | inserting dh .. | selected dh .. | linked dh .. | saved dh ..
  | completed dh _ | failing dh _ | failedUpdated dh _ => some dh
  | _ => none

/-- The discovery and the links that an open DELETE has cascaded over. -/
def dropped : Proc → Option (ℕ × List ℕ)
  | deleteCascaded dh ids | deleteDeleted dh ids => some (dh.id, ids)
  | _ => none

/-- What a persistence knows about the certificates it sees. -/
def Knows (visible : List Certificate) : Proc → Prop
  | inserting _ c todo _ =>
      todo <:+ newCertificates c.totalCertificates ∧
        ∀ fp ∈ fingerprints c.totalCertificates,
          fp ∈ todo.map Prod.fst ∨ ∃ k ∈ visible, k.fingerprint = fp
  | selected _ c _ ids =>
      ∀ fp ∈ fingerprints c.totalCertificates,
        ∃ id, Dict.get? ids fp = some id ∧ ∃ k ∈ visible, k.id = id ∧ k.fingerprint = fp
  | linked dh c _ links | saved dh c _ links =>
      List.Forall₂ (LinkTo visible dh.id c.cas) c.totalCertificates links
  | _ => True

/-- The knowledge of a persistence survives as long as no certificate goes. -/
lemma Knows.mono {visible visible' : List Certificate} (hsub : visible ⊆ visible') {x : Proc}
    (h : x.Knows visible) : x.Knows visible' := by
  cases x with
  | inserting dh c todo ins =>
      exact ⟨h.1, fun fp hfp => (h.2 fp hfp).imp_right fun ⟨k, hk, heq⟩ => ⟨k, hsub hk, heq⟩⟩
  | selected dh c ins ids =>
      intro fp hfp
      obtain ⟨id, hid, k, hk, heq⟩ := h fp hfp
      exact ⟨id, hid, k, hsub hk, heq⟩
  | linked dh c ins links => exact List.Forall₂.imp (fun _ _ hl => hl.mono hsub) h
  | saved dh c ins links => exact List.Forall₂.imp (fun _ _ hl => hl.mono hsub) h
  | _ => trivial

/-- Only a holder of the shared lock knows anything about the certificates. -/
lemma knows_of_advisory_ne {x : Proc} (h : x.advisory ≠ some .shared) (visible) :
    x.Knows visible := by
  cases x <;> trivial

/-- Only a holder of the exclusive lock has deleted certificates. -/
lemma removed_eq_nil {x : Proc} (h : x.advisory ≠ some .exclusive) : x.removed = [] := by
  cases x <;> first | rfl | exact absurd rfl h

/-- A cascade holds the row of its discovery. -/
lemma row_of_dropped {x : Proc} {d : ℕ} {ids : List ℕ} (h : x.dropped = some (d, ids)) :
    x.row = some d := by
  cases x <;> simp_all [dropped, row]

/-! ### The invariant -/

/-- What an activity knows about the store and the sequences. -/
structure Ok (s : State) (x : Proc) : Prop where
  row : ∀ d, x.row = some d → ∃ r ∈ s.store.discoveryHistory, r.id = d
  origin : ∀ r, x.origin = some r → r.id < s.historySeq ∧ r.uuid ∈ s.uuids ∧
    ∀ r' ∈ s.store.discoveryHistory, r'.uuid = r.uuid ↔ r'.id = r.id
  created : ∀ r, x.created = some r → ∀ r' ∈ s.store.discoveryHistory, r'.id ≠ r.id
  inserted : ∀ c ∈ x.inserted, c.id < s.certificateSeq ∧
    c.fingerprint = certificateFingerprint c.base64content ∧
    ∀ c' ∈ s.store.certificate, c'.id ≠ c.id ∧ c'.fingerprint ≠ c.fingerprint
  insertedId : (x.inserted.map (·.id)).Nodup
  insertedFp : (x.inserted.map (·.fingerprint)).Nodup
  links : ∀ l ∈ x.links, l.id < s.linkSeq ∧ ∀ l' ∈ s.store.discoveryCertificate, l'.id ≠ l.id
  linksId : (x.links.map (·.id)).Nodup
  knows : x.Knows (s.store.certificate ++ x.inserted)
  dropped : ∀ d ids, x.dropped = some (d, ids) →
    ∀ l ∈ s.store.discoveryCertificate, l.discoveryId = d → l.id ∈ ids
  removed : ∀ id ∈ x.removed, s.store.Orphan id

/-- What two different activities cannot both have. -/
structure Compatible (x y : Proc) : Prop where
  advisory : ∀ m m', x.advisory = some m → y.advisory = some m' → ¬ m.Conflicts m'
  row : ∀ d, x.row = some d → y.row ≠ some d
  lease : x.lease = true → y.lease = false
  inserted : ∀ c ∈ x.inserted, ∀ c' ∈ y.inserted, c.id ≠ c'.id ∧ c.fingerprint ≠ c'.fingerprint
  links : ∀ l ∈ x.links, ∀ l' ∈ y.links, l.id ≠ l'.id
  origin : ∀ r r', x.origin = some r → y.origin = some r' → r.id ≠ r'.id ∧ r.uuid ≠ r'.uuid

lemma Compatible.symm {x y : Proc} (h : x.Compatible y) : y.Compatible x where
  advisory := fun m m' hm hm' hc => h.advisory m' m hm' hm hc.symm
  row := fun d hd hd' => h.row d hd' hd
  lease := fun hy => by
    cases hx : x.lease with
    | false => rfl
    | true => exact absurd (h.lease hx) (by simp [hy])
  inserted := fun c hc c' hc' => ⟨(h.inserted c' hc' c hc).1.symm, (h.inserted c' hc' c hc).2.symm⟩
  links := fun l hl l' hl' => (h.links l' hl' l hl).symm
  origin := fun r r' hr hr' => ⟨(h.origin r' r hr' hr).1.symm, (h.origin r' r hr' hr).2.symm⟩

end Proc

/-- The invariant of the system. -/
structure Inv (s : State) : Prop where
  consistent : s.store.Consistent
  certificate_lt : ∀ c ∈ s.store.certificate, c.id < s.certificateSeq
  history_lt : ∀ r ∈ s.store.discoveryHistory, r.id < s.historySeq ∧ r.uuid ∈ s.uuids
  link_lt : ∀ l ∈ s.store.discoveryCertificate, l.id < s.linkSeq
  ok : ∀ p, (s.procs p).Ok s
  compatible : ∀ p q, p ≠ q → (s.procs p).Compatible (s.procs q)

/-- A state to start from: a consistent store whose keys are below the
sequences, which count from one, and no activity begun. -/
structure Initial (s : State) : Prop where
  certificateSeq_pos : 0 < s.certificateSeq
  consistent : s.store.Consistent
  certificate_lt : ∀ c ∈ s.store.certificate, c.id < s.certificateSeq
  history_lt : ∀ r ∈ s.store.discoveryHistory, r.id < s.historySeq ∧ r.uuid ∈ s.uuids
  link_lt : ∀ l ∈ s.store.discoveryCertificate, l.id < s.linkSeq
  queue : s.queue = []
  procs : ∀ p, s.procs p = .idle

/-- The invariant holds at the start. -/
lemma Initial.inv {s : State} (h : Initial s) : Inv s where
  consistent := h.consistent
  certificate_lt := h.certificate_lt
  history_lt := h.history_lt
  link_lt := h.link_lt
  ok := fun p => by
    rw [h.procs p]
    constructor <;> simp [Proc.row, Proc.origin, Proc.created, Proc.inserted, Proc.links,
      Proc.Knows, Proc.dropped, Proc.removed]
  compatible := fun p q _ => by
    rw [h.procs p, h.procs q]
    constructor <;> simp [Proc.advisory, Proc.row, Proc.lease, Proc.inserted, Proc.links,
      Proc.origin]

end AdcsConnector
