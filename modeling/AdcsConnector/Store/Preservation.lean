/-
The invariant is kept by every step.

* `Inv.linksOk`, `Inv.deleteOk`, `Inv.removeOk`: what an activity knows is
  enough for its deferred foreign keys at COMMIT;
* `Inv.ok_of_ne`: a step of another activity leaves what an activity knows
  true, the locks keeping away the steps that would not;
* `Inv.ok_self`, `Inv.compatible_self`: the activity that steps;
* `Inv.step`, `Inv.run`: every step, and so every run, keeps the invariant.
-/
import AdcsConnector.Store.Transition

namespace AdcsConnector

variable {cfg : Settings} {s s' : State} {p q : Pid} {e : Event}

/-! ### The deferred foreign keys -/

/-- The new links of a persistence refer to rows that are there. -/
lemma Inv.linksOk (hinv : Inv s) {dh : DiscoveryHistory} {c : Collected} {ins : List Certificate}
    {links : List DiscoveryCertificate} (hx : s.procs p = .saved dh c ins links) :
    (s.store.persist dh.id ins links).LinksOk links := by
  have hok := hinv.ok p
  rw [hx] at hok
  have hknows : List.Forall₂ (LinkTo (s.store.certificate ++ ins) dh.id c.cas)
    c.totalCertificates links := hok.knows
  obtain ⟨r, hr, hid⟩ := hok.row dh.id rfl
  intro l hl
  obtain ⟨cert, -, hlink⟩ := Rows.exists_of_forall₂_mem_right hknows hl
  obtain ⟨k, hk, hkid, -⟩ := hlink.certificate
  exact ⟨⟨k, hk, hkid⟩, Store.completeRow dh.id r, List.mem_map_of_mem hr,
    (Store.completeRow_id dh.id r).trans (hid.trans hlink.discoveryId_eq.symm)⟩

/-- No link of a deleted discovery is left. -/
lemma Inv.deleteOk (hinv : Inv s) {dh : DiscoveryHistory} {dropped : List ℕ}
    (hx : s.procs p = .deleteDeleted dh dropped) :
    ∀ l ∈ (s.store.deleteHistory dh.id dropped).discoveryCertificate, l.discoveryId ≠ dh.id := by
  have hok := hinv.ok p
  rw [hx] at hok
  intro l hl heq
  obtain ⟨hmem, hnot⟩ := List.mem_filter.mp hl
  exact absurd (hok.dropped dh.id dropped rfl l hmem heq) (by simpa [heq] using hnot)

/-- No link refers to a certificate of the batch. -/
lemma Inv.removeOk (hinv : Inv s) {bound n : ℕ} {ids : List ℕ}
    (hx : s.procs p = .batchDeleted bound n ids) :
    ∀ l ∈ s.store.discoveryCertificate, l.certificateId ∉ ids := by
  have hok := hinv.ok p
  rw [hx] at hok
  exact fun l hl hmem => hok.removed _ hmem l hl rfl

/-! ### The other activities -/

/-- A locked row stays: it is only deleted by the holder of its lock. -/
lemma Inv.row_of_ne (hinv : Inv s) (h : Step cfg s (p, e) s') (hq : q ≠ p) {d : ℕ}
    (hd : (s.procs q).row = some d) : ∃ r ∈ s'.store.discoveryHistory, r.id = d := by
  obtain ⟨r, hr, rfl⟩ := (hinv.ok q).row d hd
  have hby := h.by_self
  rw [h.store_eq]
  obtain ⟨r', hr', hid, -⟩ := Event.exists_history (e := e) hr fun d dropped he heq => by
    subst he
    obtain ⟨dh, hx, rfl⟩ := hby
    exact (hinv.compatible p q hq.symm).row dh.id (by rw [hx]; rfl) (heq ▸ hd)
  exact ⟨r', hr', hid⟩

/-- The discovery of an activity is told apart from a row that another one has
created. -/
lemma Inv.origin_of_ne (hinv : Inv s) (h : Step cfg s (p, e) s') (hq : q ≠ p)
    {r : DiscoveryHistory} (hr : (s.procs q).origin = some r) :
    r.id < s'.historySeq ∧ r.uuid ∈ s'.uuids ∧
      ∀ r' ∈ s'.store.discoveryHistory, r'.uuid = r.uuid ↔ r'.id = r.id := by
  obtain ⟨hlt, hmem, hiff⟩ := (hinv.ok q).origin r hr
  refine ⟨hlt.trans_le h.seq_le.2.1, h.seq_le.2.2.2 hmem, fun r' hr' => ?_⟩
  rw [h.store_eq] at hr'
  rcases Event.mem_history hr' with ⟨r₀, hr₀, hid, huuid⟩ | rfl
  · rw [← hid, ← huuid]
    exact hiff r₀ hr₀
  · have hby : s.procs p = .createSaved r' := h.by_self
    obtain ⟨hid, huuid⟩ := (hinv.compatible p q hq.symm).origin r' r (by rw [hby]; rfl) hr
    exact ⟨fun heq => absurd heq huuid, fun heq => absurd heq hid⟩

/-- The certificates an activity has seen stay: a batch holds the exclusive
lock, so that no persistence is open with it. -/
lemma Inv.knows_of_ne (hinv : Inv s) (h : Step cfg s (p, e) s') (hq : q ≠ p) :
    (s.procs q).Knows (s'.store.certificate ++ (s.procs q).inserted) := by
  have hby := h.by_self
  by_cases hadv : (s.procs q).advisory = some .shared
  · have hsub : s.store.certificate ⊆ s'.store.certificate := by
      rw [h.store_eq]
      refine Event.certificate_subset fun ids ret he => ?_
      subst he
      obtain ⟨bound, n, hx⟩ := hby
      exact (hinv.compatible p q hq.symm).advisory .exclusive .shared (by rw [hx]; rfl) hadv
        (.inl rfl)
    exact (hinv.ok q).knows.mono fun k hk => (List.mem_append.mp hk).elim
      (fun hk => List.mem_append_left _ (hsub hk)) (List.mem_append_right _)
  · exact Proc.knows_of_advisory_ne hadv _

/-- A cascade still has matched all links: a link written since then belongs to
a discovery whose row is locked by its writer. -/
lemma Inv.dropped_of_ne (hinv : Inv s) (h : Step cfg s (p, e) s') (hq : q ≠ p) {d : ℕ}
    {ids : List ℕ} (hd : (s.procs q).dropped = some (d, ids)) :
    ∀ l ∈ s'.store.discoveryCertificate, l.discoveryId = d → l.id ∈ ids := by
  intro l hl hld
  rw [h.store_eq] at hl
  rcases Event.mem_link hl with hold | ⟨d', ins, links, rfl, hmem⟩
  · exact (hinv.ok q).dropped d ids hd l hold hld
  · obtain ⟨dh, c, hx, rfl⟩ := h.by_self
    have hknows := (hinv.ok p).knows
    rw [hx] at hknows
    obtain ⟨cert, -, hlink⟩ := Rows.exists_of_forall₂_mem_right hknows hmem
    have hrow := (hinv.compatible p q hq.symm).row dh.id (by rw [hx]; rfl)
    rw [Proc.row_of_dropped hd, ← hld, hlink.discoveryId_eq] at hrow
    exact absurd rfl hrow

/-- The certificates of a batch get no link: a persistence holds the shared
lock, so that no batch is open with it. -/
lemma Inv.removed_of_ne (hinv : Inv s) (h : Step cfg s (p, e) s') (hq : q ≠ p) :
    ∀ id ∈ (s.procs q).removed, s'.store.Orphan id := by
  intro id hid l hl
  rw [h.store_eq] at hl
  rcases Event.mem_link hl with hold | ⟨d, ins, links, rfl, -⟩
  · exact (hinv.ok q).removed id hid l hold
  · obtain ⟨dh, c, hx, rfl⟩ := h.by_self
    have hadv : (s.procs q).advisory ≠ some .exclusive := fun hadv =>
      (hinv.compatible p q hq.symm).advisory .shared .exclusive (by rw [hx]; rfl) hadv (.inr rfl)
    rw [Proc.removed_eq_nil hadv] at hid
    simp at hid

/-- A step of another activity does not take away what is locked or written:
every field of what `q` knows stays true. -/
lemma Inv.ok_of_ne (hinv : Inv s) (h : Step cfg s (p, e) s') (hq : q ≠ p) :
    (s.procs q).Ok s' where
  row := fun d hd => hinv.row_of_ne h hq hd
  origin := fun r hr => hinv.origin_of_ne h hq hr
  created := fun r hr r' hr' => by
    rw [h.store_eq] at hr'
    rcases Event.mem_history hr' with ⟨r₀, hr₀, hid, -⟩ | rfl
    · rw [← hid]
      exact (hinv.ok q).created r hr r₀ hr₀
    · have hby : s.procs p = .createSaved r' := h.by_self
      have horigin : (s.procs q).origin = some r := by
        cases hx : s.procs q <;> rw [hx] at hr <;> simp_all [Proc.created, Proc.origin]
      exact ((hinv.compatible p q hq.symm).origin r' r (by rw [hby]; rfl) horigin).1
  inserted := fun c hc => by
    obtain ⟨hlt, hfp, hnew⟩ := (hinv.ok q).inserted c hc
    refine ⟨hlt.trans_le h.seq_le.1, hfp, fun c' hc' => ?_⟩
    rw [h.store_eq] at hc'
    rcases Event.mem_certificate hc' with hold | ⟨d, ins, links, rfl, hmem⟩
    · exact hnew c' hold
    · obtain ⟨dh, c₀, hx, -⟩ := h.by_self
      exact (hinv.compatible p q hq.symm).inserted c' (by rw [hx]; exact hmem) c hc
  insertedId := (hinv.ok q).insertedId
  insertedFp := (hinv.ok q).insertedFp
  links := fun l hl => by
    obtain ⟨hlt, hnew⟩ := (hinv.ok q).links l hl
    refine ⟨hlt.trans_le h.seq_le.2.2.1, fun l' hl' => ?_⟩
    rw [h.store_eq] at hl'
    rcases Event.mem_link hl' with hold | ⟨d, ins, links, rfl, hmem⟩
    · exact hnew l' hold
    · obtain ⟨dh, c₀, hx, -⟩ := h.by_self
      exact (hinv.compatible p q hq.symm).links l' (by rw [hx]; exact hmem) l hl
  linksId := (hinv.ok q).linksId
  knows := hinv.knows_of_ne h hq
  dropped := fun d ids hd => hinv.dropped_of_ne h hq hd
  removed := hinv.removed_of_ne h hq

/-! ### The activity that steps -/

/-- A statement does not change the store. -/
lemma Step.store_of_statement (h : Step cfg s (p, .statement) s') : s'.store = s.store := h.store_eq

/-- The uncommitted certificates after a step are new and carry their own
fingerprints. -/
lemma Inv.inserted_self (hinv : Inv s) (h : Step cfg s (p, e) s') :
    ∀ c ∈ (s'.procs p).inserted, c.id < s'.certificateSeq ∧
      c.fingerprint = certificateFingerprint c.base64content ∧
      ∀ c' ∈ s'.store.certificate, c'.id ≠ c.id ∧ c'.fingerprint ≠ c.fingerprint := by
  intro c hc
  have hold : ∀ c ∈ (s.procs p).inserted, e = .statement → c.id < s'.certificateSeq ∧
      c.fingerprint = certificateFingerprint c.base64content ∧
      ∀ c' ∈ s'.store.certificate, c'.id ≠ c.id ∧ c'.fingerprint ≠ c.fingerprint := by
    rintro c hc rfl
    obtain ⟨hlt, hfp, hnew⟩ := (hinv.ok p).inserted c hc
    exact ⟨hlt.trans_le h.seq_le.1, hfp, h.store_of_statement ▸ hnew⟩
  rcases h.inserted_cases hinv with hnil | ⟨he, hsame⟩ | ⟨k, he, hsame, hid, hlt, hfp, -, hnew⟩
  · simp [hnil] at hc
  · exact hold c (hsame ▸ hc) he
  · rw [hsame] at hc
    rcases List.mem_append.mp hc with hc | hc
    · exact hold c hc he
    · obtain rfl := List.mem_singleton.mp hc
      subst he
      refine ⟨hlt, hfp, fun c' hc' => ?_⟩
      rw [h.store_of_statement] at hc'
      have hc'lt := hinv.certificate_lt c' hc'
      exact ⟨by omega, hnew c' (List.mem_append_left _ hc')⟩

/-- The uncommitted links after a step are new. -/
lemma Inv.links_self (hinv : Inv s) (h : Step cfg s (p, e) s') :
    (∀ l ∈ (s'.procs p).links, l.id < s'.linkSeq ∧
      ∀ l' ∈ s'.store.discoveryCertificate, l'.id ≠ l.id) ∧
      ((s'.procs p).links.map (·.id)).Nodup := by
  rcases h.links_cases with hnil | ⟨rfl, hsame⟩ | ⟨n, rfl, hids, hseq⟩
  · simp [hnil]
  · rw [hsame, h.store_of_statement]
    exact ⟨fun l hl => ⟨((hinv.ok p).links l hl).1.trans_le h.seq_le.2.2.1,
      ((hinv.ok p).links l hl).2⟩, (hinv.ok p).linksId⟩
  · refine ⟨fun l hl => ?_, hids ▸ List.nodup_range'⟩
    have hmem : l.id ∈ List.range' s.linkSeq n := hids ▸ List.mem_map_of_mem hl
    obtain ⟨hge, hlt⟩ := List.mem_range'_1.mp hmem
    refine ⟨by omega, fun l' hl' => ?_⟩
    rw [h.store_of_statement] at hl'
    have hl'lt := hinv.link_lt l' hl'
    omega

/-- The discovery of the activity that steps. -/
lemma Inv.origin_self (hinv : Inv s) (h : Step cfg s (p, e) s') {r : DiscoveryHistory}
    (hr : (s'.procs p).origin = some r) : r.id < s'.historySeq ∧ r.uuid ∈ s'.uuids ∧
      ∀ r' ∈ s'.store.discoveryHistory, r'.uuid = r.uuid ↔ r'.id = r.id := by
  rcases h.origin_cases hinv hr with ⟨r₀, hr₀, hid, huuid⟩ | ⟨hid, hfresh, hlt, hmem, rfl⟩
  · obtain ⟨hlt, hmem, hiff⟩ := (hinv.ok p).origin r₀ hr₀
    rw [← hid, ← huuid]
    refine ⟨hlt.trans_le h.seq_le.2.1, h.seq_le.2.2.2 hmem, fun r' hr' => ?_⟩
    rw [h.store_eq] at hr'
    rcases Event.mem_history hr' with ⟨r₁, hr₁, hid₁, huuid₁⟩ | rfl
    · rw [← hid₁, ← huuid₁]
      exact hiff r₁ hr₁
    · -- the row committed is the activity's own
      have hby : s.procs p = .createSaved r' := h.by_self
      rw [hby] at hr₀
      obtain rfl : r' = r₀ := by simpa [Proc.origin] using hr₀
      simp
  · refine ⟨hlt, hmem, fun r' hr' => ?_⟩
    rw [h.store_of_statement] at hr'
    obtain ⟨hr'lt, hr'mem⟩ := hinv.history_lt r' hr'
    exact ⟨fun heq => absurd (heq ▸ hr'mem) hfresh, fun heq => by omega⟩

/-- What the activity that steps knows afterwards. -/
lemma Inv.ok_self (hinv : Inv s) (h : Step cfg s (p, e) s') : (s'.procs p).Ok s' where
  row := fun d hd => by
    obtain ⟨rfl, hcases⟩ := h.row_cases hinv hd
    rw [h.store_of_statement]
    rcases hcases with hd | ⟨-, hrow⟩
    · exact (hinv.ok p).row d hd
    · exact hrow
  origin := fun r hr => hinv.origin_self h hr
  created := fun r hr r' hr' => by
    obtain ⟨rfl, hid⟩ := h.created_cases hr
    rw [h.store_of_statement] at hr'
    have hlt := (hinv.history_lt r' hr').1
    omega
  inserted := hinv.inserted_self h
  insertedId := by
    rcases h.inserted_cases hinv with hnil | ⟨-, hsame⟩ | ⟨k, -, hsame, hid, -⟩
    · simp [hnil]
    · exact hsame ▸ (hinv.ok p).insertedId
    · rw [hsame]
      refine Rows.nodup_map_append (hinv.ok p).insertedId (by simp) fun b hb a ha => ?_
      obtain rfl := List.mem_singleton.mp hb
      have hlt := ((hinv.ok p).inserted a ha).1
      omega
  insertedFp := by
    rcases h.inserted_cases hinv with hnil | ⟨-, hsame⟩ | ⟨k, -, hsame, -, -, -, -, hnew⟩
    · simp [hnil]
    · exact hsame ▸ (hinv.ok p).insertedFp
    · rw [hsame]
      refine Rows.nodup_map_append (hinv.ok p).insertedFp (by simp) fun b hb a ha => ?_
      obtain rfl := List.mem_singleton.mp hb
      exact hnew a (List.mem_append_right _ ha)
  links := (hinv.links_self h).1
  linksId := (hinv.links_self h).2
  knows := h.knows_self hinv
  dropped := fun d ids hd l hl hld => by
    obtain ⟨rfl, hcases⟩ := h.dropped_cases hd
    rw [h.store_of_statement] at hl
    rcases hcases with hd | rfl
    · exact (hinv.ok p).dropped d ids hd l hl hld
    · exact List.mem_map_of_mem (List.mem_filter.mpr ⟨hl, by simpa using hld⟩)
  removed := fun id hid => by
    obtain ⟨rfl, horphan⟩ := h.removed_cases hid
    rw [h.store_of_statement]
    exact horphan

/-- What the activity that steps has afterwards, no other one has. -/
lemma Inv.compatible_self (hinv : Inv s) (h : Step cfg s (p, e) s') (hq : q ≠ p) :
    (s'.procs p).Compatible (s.procs q) where
  advisory := fun m m' hm hm' => by
    rcases h.advisory_cases hm with hm | ⟨ahead, hgrant⟩
    · exact (hinv.compatible p q hq.symm).advisory m m' hm hm'
    · exact hgrant.1 q hq m' hm'
  row := fun d hd => by
    rcases (h.row_cases hinv hd).2 with hd | ⟨hfree, -⟩
    · exact (hinv.compatible p q hq.symm).row d hd
    · exact hfree q hq
  lease := fun hl => by
    rcases h.lease_cases hl with hl | hfree
    · exact (hinv.compatible p q hq.symm).lease hl
    · exact hfree q hq
  inserted := fun c hc c' hc' => by
    have hcomp := (hinv.compatible p q hq.symm).inserted
    rcases h.inserted_cases hinv with hnil | ⟨-, hsame⟩ | ⟨k, -, hsame, hid, -, -, hfree, -⟩
    · simp [hnil] at hc
    · exact hcomp c (hsame ▸ hc) c' hc'
    · rw [hsame] at hc
      rcases List.mem_append.mp hc with hc | hc
      · exact hcomp c hc c' hc'
      · obtain rfl := List.mem_singleton.mp hc
        have hlt := ((hinv.ok q).inserted c' hc').1
        exact ⟨by omega, ((hfree q hq).1 c' hc').symm⟩
  links := fun l hl l' hl' => by
    rcases h.links_cases with hnil | ⟨-, hsame⟩ | ⟨n, -, hids, -⟩
    · simp [hnil] at hl
    · exact (hinv.compatible p q hq.symm).links l (hsame ▸ hl) l' hl'
    · have hmem : l.id ∈ List.range' s.linkSeq n := hids ▸ List.mem_map_of_mem hl
      have hge := (List.mem_range'_1.mp hmem).1
      have hlt := ((hinv.ok q).links l' hl').1
      omega
  origin := fun r r' hr hr' => by
    rcases h.origin_cases hinv hr with ⟨r₀, hr₀, hid, huuid⟩ | ⟨hid, hfresh, -⟩
    · rw [← hid, ← huuid]
      exact (hinv.compatible p q hq.symm).origin r₀ r' hr₀ hr'
    · obtain ⟨hlt, hmem, -⟩ := (hinv.ok q).origin r' hr'
      exact ⟨by omega, fun heq => hfresh (heq ▸ hmem)⟩

/-! ### Every step -/

/-- The commit of a step keeps the store consistent. -/
lemma Inv.consistent_step (hinv : Inv s) (h : Step cfg s (p, e) s') : s'.store.Consistent := by
  have hp := hinv.ok p
  have hby := h.by_self
  rw [h.store_eq]
  cases e with
  | created row =>
      have horigin := hp.origin row (by rw [hby]; rfl)
      have hid := hp.created row (by rw [hby]; rfl)
      exact hinv.consistent.addHistory hid fun r hr heq => hid r hr ((horigin.2.2 r hr).mp heq)
  | persisted d ins links =>
      obtain ⟨dh, c, hx, rfl⟩ := hby
      have hfk := hinv.linksOk hx
      rw [hx] at hp
      exact hinv.consistent.persist hp.insertedId hp.insertedFp (fun c hc => (hp.inserted c hc).2.1)
        (fun c hc => (hp.inserted c hc).2.2) hp.linksId (fun l hl => (hp.links l hl).2) hfk
  | failed d uuid reason => exact hinv.consistent.fail uuid reason
  | deleted d dropped =>
      obtain ⟨dh, hx, rfl⟩ := hby
      exact hinv.consistent.deleteHistory (hinv.deleteOk hx)
  | claimed now bound st => exact hinv.consistent.saveState st
  | batch ids ret =>
      obtain ⟨bound, n, hx⟩ := hby
      exact hinv.consistent.removeCertificates (hinv.removeOk hx)
  | _ => exact hinv.consistent

/-- **Every step keeps the invariant.** -/
theorem Inv.step (hinv : Inv s) (h : Step cfg s (p, e) s') : Inv s' where
  consistent := hinv.consistent_step h
  certificate_lt := fun c hc => by
    rw [h.store_eq] at hc
    refine lt_of_lt_of_le ?_ h.seq_le.1
    rcases Event.mem_certificate hc with hc | ⟨d, ins, links, rfl, hmem⟩
    · exact hinv.certificate_lt c hc
    · obtain ⟨dh, c₀, hx, -⟩ := h.by_self
      exact ((hinv.ok p).inserted c (by rw [hx]; exact hmem)).1
  history_lt := fun r hr => by
    rw [h.store_eq] at hr
    have hold : r.id < s.historySeq ∧ r.uuid ∈ s.uuids := by
      rcases Event.mem_history hr with ⟨r₀, hr₀, hid, huuid⟩ | rfl
      · exact hid ▸ huuid ▸ hinv.history_lt r₀ hr₀
      · have hby : s.procs p = .createSaved r := h.by_self
        have horigin := (hinv.ok p).origin r (by rw [hby]; rfl)
        exact ⟨horigin.1, horigin.2.1⟩
    exact ⟨hold.1.trans_le h.seq_le.2.1, h.seq_le.2.2.2 hold.2⟩
  link_lt := fun l hl => by
    rw [h.store_eq] at hl
    refine lt_of_lt_of_le ?_ h.seq_le.2.2.1
    rcases Event.mem_link hl with hl | ⟨d, ins, links, rfl, hmem⟩
    · exact hinv.link_lt l hl
    · obtain ⟨dh, c₀, hx, -⟩ := h.by_self
      exact ((hinv.ok p).links l (by rw [hx]; exact hmem)).1
  ok := fun q => by
    by_cases hq : q = p
    · exact hq ▸ hinv.ok_self h
    · rw [h.procs_of_ne hq]
      exact hinv.ok_of_ne h hq
  compatible := fun a b hab => by
    by_cases ha : a = p
    · subst ha
      rw [h.procs_of_ne hab.symm]
      exact hinv.compatible_self h hab.symm
    · by_cases hb : b = p
      · subst hb
        rw [h.procs_of_ne hab]
        exact (hinv.compatible_self h hab).symm
      · rw [h.procs_of_ne ha, h.procs_of_ne hb]
        exact hinv.compatible a b hab

/-- **Every run keeps the invariant.** -/
theorem Inv.run (hinv : Inv s) {tr : List (Pid × Event)} (h : Runs cfg s tr s') : Inv s' :=
  h.invariant (fun _ _ _ hinv hst => hinv.step hst) hinv

end AdcsConnector
