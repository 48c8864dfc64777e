/-
What one step can do to each thing an activity has at hand, and to each table.

The case analysis over the statements is made here, once for each lock and
each kind of uncommitted write; the invariants are derived from these lemmas
and do not look at the statements again.
-/
import AdcsConnector.Store.Invariant

namespace AdcsConnector

/-! ### The tables after a commit -/

namespace Event

variable {s : Store} {e : Event}

/-- A row of the history after a commit was there, or is the row created. -/
lemma mem_history {r : DiscoveryHistory} (h : r ∈ (e.commit s).discoveryHistory) :
    (∃ r' ∈ s.discoveryHistory, r'.id = r.id ∧ r'.uuid = r.uuid) ∨ e = .created r := by
  cases e with
  | created row =>
      rcases List.mem_append.mp h with h | h
      · exact .inl ⟨r, h, rfl, rfl⟩
      · exact .inr (by rw [List.mem_singleton.mp h])
  | persisted d ins links =>
      obtain ⟨r', hr', rfl⟩ := List.mem_map.mp h
      exact .inl ⟨r', hr', (Store.completeRow_id d r').symm, (Store.completeRow_uuid d r').symm⟩
  | failed d u reason =>
      obtain ⟨r', hr', rfl⟩ := List.mem_map.mp h
      exact .inl ⟨r', hr', (Store.failRow_id u reason r').symm,
        (Store.failRow_uuid u reason r').symm⟩
  | deleted d dropped => exact .inl ⟨r, List.mem_of_mem_filter h, rfl, rfl⟩
  | _ => exact .inl ⟨r, h, rfl, rfl⟩

/-- A row of the history stays, except for the row deleted. -/
lemma exists_history {r : DiscoveryHistory} (h : r ∈ s.discoveryHistory)
    (hkeep : ∀ d dropped, e = .deleted d dropped → r.id ≠ d) :
    ∃ r' ∈ (e.commit s).discoveryHistory, r'.id = r.id ∧ r'.uuid = r.uuid := by
  cases e with
  | created row => exact ⟨r, List.mem_append_left _ h, rfl, rfl⟩
  | persisted d ins links =>
      exact ⟨_, List.mem_map_of_mem h, Store.completeRow_id d r, Store.completeRow_uuid d r⟩
  | failed d u reason =>
      exact ⟨_, List.mem_map_of_mem h, Store.failRow_id u reason r, Store.failRow_uuid u reason r⟩
  | deleted d dropped =>
      exact ⟨r, List.mem_filter.mpr ⟨h, by simpa using hkeep d dropped rfl⟩, rfl, rfl⟩
  | _ => exact ⟨r, h, rfl, rfl⟩

/-- A certificate after a commit was there, or is one of those persisted. -/
lemma mem_certificate {c : Certificate} (h : c ∈ (e.commit s).certificate) :
    c ∈ s.certificate ∨ ∃ d ins links, e = .persisted d ins links ∧ c ∈ ins := by
  cases e with
  | persisted d ins links =>
      exact (List.mem_append.mp h).imp_right fun h => ⟨d, ins, links, rfl, h⟩
  | batch ids ret => exact .inl (List.mem_of_mem_filter h)
  | _ => exact .inl h

/-- Only a batch takes certificates away. -/
lemma certificate_subset (h : ∀ ids ret, e ≠ .batch ids ret) :
    s.certificate ⊆ (e.commit s).certificate := by
  cases e with
  | persisted d ins links => exact List.subset_append_left _ _
  | batch ids ret => exact absurd rfl (h ids ret)
  | _ => exact fun _ hc => hc

/-- A link after a commit was there, or is one of those persisted. -/
lemma mem_link {l : DiscoveryCertificate} (h : l ∈ (e.commit s).discoveryCertificate) :
    l ∈ s.discoveryCertificate ∨ ∃ d ins links, e = .persisted d ins links ∧ l ∈ links := by
  cases e with
  | persisted d ins links =>
      exact (List.mem_append.mp h).imp_right fun h => ⟨d, ins, links, rfl, h⟩
  | deleted d dropped => exact .inl (List.mem_of_mem_filter h)
  | _ => exact .inl h

/-- The activity that commits, for each commit. -/
def By (x : Proc) : Event → Prop
  | created row => x = .createSaved row
  | persisted d ins links => ∃ dh c, x = .saved dh c ins links ∧ dh.id = d
  | failed d uuid reason => ∃ dh, x = .failedUpdated dh reason ∧ dh.id = d ∧ dh.uuid = uuid
  | deleted d dropped => ∃ dh, x = .deleteDeleted dh dropped ∧ dh.id = d
  | claimed now bound st => x = .claimBounded now st bound
  | batch ids _ => ∃ bound n, x = .batchDeleted bound n ids
  | _ => True

end Event

/-- The links built from ids known to be right are links to visible
certificates. -/
lemma linkTo_of_linkFor {visible : List Certificate} {d : ℕ} {cas : List AuthorityData}
    {ids : List (String × ℕ)} {total : List ParseResult} {links : List DiscoveryCertificate}
    (hids : ∀ fp ∈ fingerprints total, ∃ id, Dict.get? ids fp = some id ∧
      ∃ k ∈ visible, k.id = id ∧ k.fingerprint = fp)
    (h : List.Forall₂ (LinkFor d cas ids) total links) :
    List.Forall₂ (LinkTo visible d cas) total links := by
  induction h with
  | nil => exact .nil
  | cons hl _ ih =>
      refine .cons ?_ (ih fun fp hfp => hids fp (List.mem_cons_of_mem _ hfp))
      obtain ⟨id, hid, k, hk, hkid, hkfp⟩ := hids _ List.mem_cons_self
      have heq := Option.some.inj (hid.symm.trans hl.certificateId_eq)
      exact ⟨hl.discoveryId_eq, ⟨k, hk, hkid.trans heq, hkfp⟩, hl.metadata_eq⟩

/-! ### The activity that steps -/

namespace Step

variable {cfg : Settings} {s s' : State} {p q : Pid} {e : Event}

/-- A commit is made by an activity that has come to its end. -/
lemma by_self (h : Step cfg s (p, e) s') : e.By (s.procs p) := by
  cases h <;> simp_all [Event.By]

/-- The advisory lock is kept, given back, or granted. -/
lemma advisory_cases (h : Step cfg s (p, e) s') {m : Mode}
    (hm : (s'.procs p).advisory = some m) :
    (s.procs p).advisory = some m ∨ ∃ ahead, s.Grantable p m ahead := by
  cases h with
  | persistLock hx hqueue hgrant =>
      obtain rfl : m = .shared := by simpa [Proc.advisory] using hm.symm
      exact .inr ⟨_, hgrant⟩
  | batchLock hx hqueue hgrant =>
      obtain rfl : m = .exclusive := by simpa [Proc.advisory] using hm.symm
      exact .inr ⟨_, hgrant⟩
  | claimLock hx hqueue hgrant =>
      obtain rfl : m = .exclusive := by simpa [Proc.advisory] using hm.symm
      exact .inr ⟨_, hgrant⟩
  | _ => simp_all [Proc.advisory]

/-- A history row is kept locked, or is newly locked and there. -/
lemma row_cases (h : Step cfg s (p, e) s') (hinv : Inv s) {d : ℕ}
    (hd : (s'.procs p).row = some d) :
    e = .statement ∧ ((s.procs p).row = some d ∨
      (s.RowFree p d ∧ ∃ r ∈ s.store.discoveryHistory, r.id = d)) := by
  cases h with
  | @selectForUpdate p dh c hx hrow hfree =>
      obtain rfl : dh.id = d := by simpa [Proc.row] using hd
      exact ⟨rfl, .inr ⟨hfree, hrow⟩⟩
  | deleteLock dh hx hdh huuid hfree =>
      obtain rfl : dh.id = d := by simpa [Proc.row] using hd
      exact ⟨rfl, .inr ⟨hfree, dh, hdh, rfl⟩⟩
  | @failUpdate p dh reason hx hrow =>
      obtain rfl : dh.id = d := by simpa [Proc.row] using hd
      obtain ⟨r, hr, huuid, hfree⟩ := hrow
      have horigin := (hinv.ok _).origin dh (by rw [hx]; rfl)
      have hid := (horigin.2.2 r hr).mp huuid
      exact ⟨rfl, .inr ⟨hid ▸ hfree, r, hr, hid⟩⟩
  | _ => simp_all [Proc.row]

/-- The cleanup state is kept locked, or newly locked. -/
lemma lease_cases (h : Step cfg s (p, e) s') (hl : (s'.procs p).lease = true) :
    (s.procs p).lease = true ∨ s.LeaseFree p := by
  cases h <;> simp_all [Proc.lease]

/-- A history row is only created with a fresh id. -/
lemma created_cases (h : Step cfg s (p, e) s') {r : DiscoveryHistory}
    (hr : (s'.procs p).created = some r) : e = .statement ∧ r.id = s.historySeq := by
  cases h with
  | createSave uuid hx hfresh =>
      obtain rfl :=
        Option.some.inj ((congrArg Proc.created (State.set_procs_self ..)).symm.trans hr)
      exact ⟨rfl, rfl⟩
  | _ => simp_all [Proc.created]

/-- An activity keeps its discovery, or has just created it with a fresh id
and a fresh uuid. -/
lemma origin_cases (h : Step cfg s (p, e) s') (hinv : Inv s) {r : DiscoveryHistory}
    (hr : (s'.procs p).origin = some r) :
    (∃ r', (s.procs p).origin = some r' ∧ r'.id = r.id ∧ r'.uuid = r.uuid) ∨
      (r.id = s.historySeq ∧ r.uuid ∉ s.uuids ∧ r.id < s'.historySeq ∧ r.uuid ∈ s'.uuids ∧
        e = .statement) := by
  cases h with
  | createSave uuid hx hfresh =>
      obtain rfl := Option.some.inj ((congrArg Proc.origin (State.set_procs_self ..)).symm.trans hr)
      exact .inr ⟨rfl, hfresh, by simp, by simp, rfl⟩
  | @threadGet p row dh hx hdh huuid =>
      obtain rfl : dh = r := by simpa [Proc.origin] using hr
      have horigin := (hinv.ok _).origin row (by rw [hx]; rfl)
      exact .inl ⟨row, by rw [hx]; rfl, ((horigin.2.2 dh hdh).mp huuid).symm, huuid.symm⟩
  | @raise p dh reason hx =>
      obtain rfl : dh = r := by simpa [Proc.origin] using hr
      refine .inl ⟨dh, ?_, rfl, rfl⟩
      cases hp : s.procs p <;> rw [hp] at hx <;> simp_all [Proc.tried, Proc.origin]
  | _ => simp_all [Proc.origin]

/-- The uncommitted certificates are kept, given up, or grow by one whose
fingerprint is free and not visible. -/
lemma inserted_cases (h : Step cfg s (p, e) s') (hinv : Inv s) :
    (s'.procs p).inserted = [] ∨
      (e = .statement ∧ (s'.procs p).inserted = (s.procs p).inserted) ∨
      ∃ k : Certificate, e = .statement ∧
        (s'.procs p).inserted = (s.procs p).inserted ++ [k] ∧
        k.id = s.certificateSeq ∧ k.id < s'.certificateSeq ∧
        k.fingerprint = certificateFingerprint k.base64content ∧
        s.IndexFree p k.fingerprint ∧ ∀ c ∈ s.visible p, c.fingerprint ≠ k.fingerprint := by
  cases h with
  | @insertNew p dh c fp content todo ins hx hnew hfree =>
      have hknows := (hinv.ok p).knows
      rw [hx] at hknows
      have hmem : (fp, content) ∈ newCertificates c.totalCertificates :=
        hknows.1.subset List.mem_cons_self
      refine .inr (.inr ⟨⟨s.certificateSeq, fp, content⟩, rfl, ?_, rfl, by simp,
        newCertificates_fingerprint hmem, hfree, hnew⟩)
      rw [State.set_procs_self, hx]
      rfl
  | _ => simp_all [Proc.inserted]

/-- The uncommitted links are kept, given up, or written with the next ids of
the sequence. -/
lemma links_cases (h : Step cfg s (p, e) s') :
    (s'.procs p).links = [] ∨ (e = .statement ∧ (s'.procs p).links = (s.procs p).links) ∨
      ∃ n, e = .statement ∧ (s'.procs p).links.map (·.id) = List.range' s.linkSeq n ∧
        s'.linkSeq = s.linkSeq + n := by
  cases h with
  | link uuids hx huuids hlinks =>
      refine .inr (.inr ⟨_, rfl, ?_, rfl⟩)
      rw [State.set_procs_self]
      exact discoveryCertificates_ids hlinks
  | _ => simp_all [Proc.links]

/-- The links cascaded over are those the store has for the discovery. -/
lemma dropped_cases (h : Step cfg s (p, e) s') {d : ℕ} {ids : List ℕ}
    (hd : (s'.procs p).dropped = some (d, ids)) :
    e = .statement ∧
      ((s.procs p).dropped = some (d, ids) ∨ ids = (s.store.linksOf d).map (·.id)) := by
  cases h with
  | @deleteCascade p dh hx =>
      obtain ⟨rfl, rfl⟩ : dh.id = d ∧ (s.store.linksOf dh.id).map (·.id) = ids := by
        simpa [Proc.dropped] using hd
      exact ⟨rfl, .inr rfl⟩
  | _ => simp_all [Proc.dropped]

/-- The certificates deleted are orphans of the store. -/
lemma removed_cases (h : Step cfg s (p, e) s') {id : ℕ} (hid : id ∈ (s'.procs p).removed) :
    e = .statement ∧ s.store.Orphan id := by
  cases h with
  | batchDelete ids hx hids hlimit =>
      have hmem := hids.subset (show id ∈ ids by simpa [Proc.removed] using hid)
      obtain ⟨c, hc, rfl⟩ := List.mem_map.mp hmem
      have hc' := (List.mem_filter.mp hc).2
      simp only [Bool.and_eq_true, decide_eq_true_eq] at hc'
      exact ⟨rfl, hc'.2⟩
  | _ => simp_all [Proc.removed]

/-- What a persistence knows after its own statement. -/
lemma knows_self (h : Step cfg s (p, e) s') (hinv : Inv s) :
    (s'.procs p).Knows (s'.store.certificate ++ (s'.procs p).inserted) := by
  have hknows := (hinv.ok p).knows
  cases h with
  | selectForUpdate hx hrow hfree =>
      rw [State.set_procs_self]
      exact ⟨List.suffix_refl _, fun fp hfp => .inl (mem_newCertificates_fst.mpr hfp)⟩
  | insertConflict hx hconflict hfree =>
      rw [hx] at hknows
      rw [State.visible, hx] at hconflict
      rw [State.set_procs_self]
      refine ⟨(List.suffix_cons _ _).trans hknows.1, fun fp' hfp' => ?_⟩
      rcases hknows.2 fp' hfp' with htodo | hk
      · rcases List.mem_cons.mp htodo with rfl | htodo
        · exact .inr hconflict
        · exact .inl htodo
      · exact .inr hk
  | @insertNew p dh c fp content todo ins hx hnew hfree =>
      rw [hx] at hknows
      rw [State.set_procs_self]
      refine ⟨(List.suffix_cons _ _).trans hknows.1, fun fp' hfp' => ?_⟩
      rcases hknows.2 fp' hfp' with htodo | ⟨k, hk, heq⟩
      · rcases List.mem_cons.mp htodo with rfl | htodo
        · exact .inr ⟨⟨s.certificateSeq, fp', content⟩, by simp [Proc.inserted], rfl⟩
        · exact .inl htodo
      · refine .inr ⟨k, ?_, heq⟩
        rcases List.mem_append.mp hk with hk | hk
        · exact List.mem_append_left _ hk
        · exact List.mem_append_right _ (List.mem_append_left _ hk)
  | selectIds hx =>
      rw [hx] at hknows
      rw [State.set_procs_self, State.visible, hx, State.set_store]
      intro fp hfp
      have hvis := (hknows.2 fp hfp).resolve_left (by simp)
      obtain ⟨id, hid⟩ := exists_idByFp (mem_keys_uniqueCertificates.mpr hfp) hvis
      exact ⟨id, hid, idByFp_sound hid⟩
  | @link p dh c ins ids links uuids hx huuids hlinks =>
      rw [hx] at hknows
      rw [State.set_procs_self]
      refine linkTo_of_linkFor hknows (discoveryCertificates_forall₂ hlinks)
  | save hx hrow =>
      rw [hx] at hknows
      rw [State.set_procs_self]
      exact hknows
  | _ => rw [State.set_procs_self]; trivial

end Step

end AdcsConnector
