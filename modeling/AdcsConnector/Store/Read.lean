/-
Reading a discovery while it runs: `get_discovery_history_data`.

The call fetches the row of the discovery, counts its links and selects one
page of them in three statements, each with its own snapshot; the row is
fetched in `discovery_operations`, or was created in `start_discovery`.

* `getDiscoveryHistoryData`: the response built from the three answers;
* `Read`: the calls that the steps of the system may interleave with;
* `linksOf_of_persisted`, `linksOf_of_deletes`, `linksOf_of_not_persisted`: the
  links of a discovery, read off the commits of a run;
* `read_oneState_iff`: exactly when a response shows one state of the
  discovery.
-/
import AdcsConnector.Store.LifeCycle
import AdcsConnector.Library.Slice

namespace AdcsConnector

variable {cfg : Settings} {s₀ s s' : State} {p q : Pid} {e : Event}
  {tr tr₀ tr₁ tr₂ : List (Pid × Event)}

/-! ### The response -/

/-- `DiscoveryHistoryRequestDto`: the paging that is asked for. -/
structure DiscoveryHistoryRequest where
  pageNumber : ℤ
  itemsPerPage : ℤ
  deriving DecidableEq

/-- The request `start_discovery` makes: it sets attributes that are not read,
so the defaults of the constructor stay. -/
def startDiscoveryRequest : DiscoveryHistoryRequest := ⟨0, 100⟩

/-- `DiscoveryCertificateDto`. -/
structure DiscoveryCertificateDto where
  uuid : UUID
  base64Content : String
  metadata : Option (List MetaAttribute)
  deriving DecidableEq

/-- `DiscoveryHistoryResponseDto`. -/
structure DiscoveryHistoryResponse where
  name : String
  uuid : UUID
  status : String
  certificateData : List DiscoveryCertificateDto
  metadata : Option (List MetaAttribute)
  totalCertificatesDiscovered : ℕ
  deriving DecidableEq

/-- `DiscoveryCertificate.objects.filter(discovery_id=d).select_related('certificate')`:
an inner join. -/
def Store.selectRelated (s : Store) (d : ℕ) : List (DiscoveryCertificate × Certificate) :=
  (s.linksOf d).flatMap fun l =>
    (s.certificate.filter fun c => c.id = l.certificateId).map fun c => (l, c)

/-- The answers of the join `.order_by('uuid')`. -/
abbrev OrderedByUuid := Rows.OrderBy fun v : DiscoveryCertificate × Certificate => v.1.uuid

/-- The slice of a query set. -/
def querysetSlice {α : Type} (l : List α) (start stop : ℤ) : Except PyError (List α) :=
  if start < 0 ∨ stop < 0 then .error (.valueError "Negative indexing is not supported.")
  else .ok (Slice.slice l start.toNat stop.toNat)

/-- One item of `certificate_data`. -/
def certificateDto (v : DiscoveryCertificate × Certificate) : DiscoveryCertificateDto :=
  ⟨v.1.uuid, v.2.base64content, v.1.metadata⟩

/-- `get_discovery_history_data`, given the store at the count and the ordered
answer of the page query. The guard compares the stored string with a member
of the enumeration. -/
def getDiscoveryHistoryData (request : DiscoveryHistoryRequest) (h : DiscoveryHistory)
    (atCount : Store) (ordered : List (DiscoveryCertificate × Certificate)) :
    Except PyError DiscoveryHistoryResponse :=
  let totalCertificates := (atCount.linksOf h.id).length
  if StatusValue.str h.status = StatusValue.member .inProgress then
    .ok ⟨h.name, h.uuid, h.status, [], h.metadata, 0⟩
  else
    let pageNumber := if request.pageNumber ≤ 0 then 0 else request.pageNumber - 1
    match querysetSlice ordered (pageNumber * request.itemsPerPage)
        ((pageNumber + 1) * request.itemsPerPage) with
    | .error e => .error e
    | .ok vals =>
        .ok ⟨h.name, h.uuid, h.status, vals.map certificateDto, h.metadata, totalCertificates⟩

/-- The page asked for, counted from zero. -/
def DiscoveryHistoryRequest.page (request : DiscoveryHistoryRequest) : ℕ :=
  (request.pageNumber - 1).toNat

/-- The number of links before the page asked for. -/
def DiscoveryHistoryRequest.offset (request : DiscoveryHistoryRequest) : ℕ :=
  request.page * request.itemsPerPage.toNat

/-- With at least one item per page the call returns: the guard never fires,
and the page asked for is cut out of the ordered links. -/
lemma getDiscoveryHistoryData_eq {request : DiscoveryHistoryRequest}
    (hk : 1 ≤ request.itemsPerPage) (h : DiscoveryHistory) (atCount : Store)
    (ordered : List (DiscoveryCertificate × Certificate)) :
    getDiscoveryHistoryData request h atCount ordered =
      .ok ⟨h.name, h.uuid, h.status,
        (Slice.page ordered request.itemsPerPage.toNat request.page).map certificateDto,
        h.metadata, (atCount.linksOf h.id).length⟩ := by
  obtain ⟨pageNumber, itemsPerPage⟩ := request
  obtain ⟨k, rfl⟩ : ∃ k : ℕ, itemsPerPage = k := ⟨itemsPerPage.toNat, by
    simp only at hk; omega⟩
  have hpage : (if pageNumber ≤ 0 then 0 else pageNumber - 1) = ((pageNumber - 1).toNat : ℤ) := by
    split <;> omega
  have hstart : (((pageNumber - 1).toNat : ℤ) * k) = (((pageNumber - 1).toNat * k : ℕ) : ℤ) := by
    push_cast; rfl
  have hstop : ((((pageNumber - 1).toNat : ℤ) + 1) * k) =
      ((((pageNumber - 1).toNat + 1) * k : ℕ) : ℤ) := by push_cast; rfl
  rw [getDiscoveryHistoryData, if_neg (by simp)]
  simp only [hpage, hstart, hstop, querysetSlice]
  rw [if_neg (by omega)]
  simp only [Int.toNat_natCast, DiscoveryHistoryRequest.page, Slice.page]

/-! ### The join -/

/-- In a consistent store every link joins with its one certificate. -/
lemma Store.Consistent.selectRelated_fst {s : Store} (h : s.Consistent) (d : ℕ) :
    (s.selectRelated d).map Prod.fst = s.linksOf d := by
  have hone : ∀ l ∈ s.linksOf d, ((s.certificate.filter fun c => c.id = l.certificateId).map
      fun c => (l, c)).map Prod.fst = [l] := by
    intro l hl
    obtain ⟨c, hc, hid⟩ := h.certificateFk l (List.mem_of_mem_filter hl)
    rw [← hid, Rows.filter_key_eq h.certificateId hc]
    rfl
  rw [Store.selectRelated, List.map_flatMap, List.flatMap_congr hone, List.flatMap_singleton']

lemma Store.mem_selectRelated {s : Store} {d : ℕ} {v : DiscoveryCertificate × Certificate} :
    v ∈ s.selectRelated d ↔ v.1 ∈ s.linksOf d ∧ v.2 ∈ s.certificate ∧
      v.2.id = v.1.certificateId := by
  obtain ⟨l, c⟩ := v
  simp only [Store.selectRelated, List.mem_flatMap, List.mem_map, List.mem_filter,
    decide_eq_true_eq, Prod.mk.injEq]
  constructor
  · rintro ⟨l, hl, c, ⟨hc, hid⟩, rfl, rfl⟩
    exact ⟨hl, hc, hid⟩
  · rintro ⟨hl, hc, hid⟩
    exact ⟨l, hl, c, ⟨hc, hid⟩, rfl, rfl⟩

/-- The join keeps its answer when the links stay and so do their
certificates. -/
lemma Store.Consistent.selectRelated_eq {s s' : Store} (h : s.Consistent) (h' : s'.Consistent)
    {d : ℕ} (hlinks : s'.linksOf d = s.linksOf d)
    (hstay : ∀ l ∈ s.linksOf d, ∀ c ∈ s.certificate, c.id = l.certificateId → c ∈ s'.certificate) :
    s'.selectRelated d = s.selectRelated d := by
  rw [Store.selectRelated, Store.selectRelated, hlinks]
  refine List.flatMap_congr fun l hl => ?_
  obtain ⟨c, hc, hid⟩ := h.certificateFk l (List.mem_of_mem_filter hl)
  rw [← hid, Rows.filter_key_eq h.certificateId hc,
    Rows.filter_key_eq h'.certificateId (hstay l hl c hc hid)]

/-! ### The links of a discovery along a run -/

/-- A discovery that its thread will not end any more stays as it is as long as it is
not deleted. -/
lemma Inv.kept_step (hinv : Inv s) (h : Step cfg s (p, e) s') {r : DiscoveryHistory}
    (hr : r ∈ s.store.discoveryHistory)
    (hdone : ∀ dh, (s.procs p).pending = some dh → dh.id ≠ r.id)
    (hdel : ∀ dropped, e ≠ .deleted r.id dropped) :
    r ∈ s'.store.discoveryHistory ∧ s'.store.linksOf r.id = s.store.linksOf r.id := by
  refine ⟨?_, hinv.linksOf_eq h ?_ hdel⟩
  · have hby := h.by_self
    rw [h.store_eq]
    cases e with
    | created row => exact List.mem_append_left _ hr
    | persisted d ins links =>
        obtain ⟨dh, c, hx, rfl⟩ := hby
        refine List.mem_map.mpr ⟨r, hr, if_neg fun heq => ?_⟩
        exact hdone dh (by rw [hx]; rfl) heq.symm
    | failed d uuid reason =>
        obtain ⟨dh, hx, rfl, rfl⟩ := hby
        refine List.mem_map.mpr ⟨r, hr, if_neg fun heq => ?_⟩
        have hid := (((hinv.ok p).origin dh (by rw [hx]; rfl)).2.2 r hr).mp heq
        exact hdone dh (by rw [hx]; rfl) hid.symm
    | deleted d dropped =>
        exact List.mem_filter.mpr ⟨hr, by simpa using fun heq => hdel dropped (by rw [heq])⟩
    | _ => exact hr
  · rintro ins links rfl
    obtain ⟨dh, c, hx, hid⟩ := h.by_self
    exact hdone dh (by rw [hx]; rfl) hid

/-- A completed discovery stays as it is as long as it is not deleted. -/
lemma LifeCycle.completed_step {n₀ : ℕ} (hl : LifeCycle n₀ s) (hinv : Inv s)
    (h : Step cfg s (p, e) s') {r : DiscoveryHistory} (hr : r ∈ s.store.discoveryHistory)
    (hstatus : r.status = DiscoveryStatus.completed.value)
    (hdel : ∀ dropped, e ≠ .deleted r.id dropped) :
    r ∈ s'.store.discoveryHistory ∧ s'.store.linksOf r.id = s.store.linksOf r.id :=
  -- the thread of a completed discovery commits nothing more
  hinv.kept_step h hr (fun dh hdh heq =>
    absurd (((hl.pending p dh hdh).2 r hr heq.symm).symm.trans hstatus) (by decide)) hdel

lemma LifeCycle.completed_run {n₀ : ℕ} (hl : LifeCycle n₀ s) (hinv : Inv s)
    (hr : Runs cfg s tr s') {r : DiscoveryHistory} (hmem : r ∈ s.store.discoveryHistory)
    (hstatus : r.status = DiscoveryStatus.completed.value)
    (hdel : ∀ q dropped, (q, Event.deleted r.id dropped) ∉ tr) :
    r ∈ s'.store.discoveryHistory ∧ s'.store.linksOf r.id = s.store.linksOf r.id ∧
      s'.store.selectRelated r.id = s.store.selectRelated r.id := by
  induction hr with
  | refl => exact ⟨hmem, rfl, rfl⟩
  | @tail tr e t t' hr hst ih =>
      obtain ⟨ht, hlinks, hjoin⟩ := ih fun q dropped hq =>
        hdel q dropped (List.mem_append_left _ hq)
      have hti := hinv.run hr
      have hlt : LifeCycle n₀ t := (hr.invariant (I := fun s => Inv s ∧ LifeCycle n₀ s)
        (fun _ _ _ hi hst => ⟨hi.1.step hst, hi.2.step hi.1 hst⟩) ⟨hinv, hl⟩).2
      obtain ⟨ht', hlinks'⟩ := hlt.completed_step hti hst ht hstatus fun dropped heq =>
        hdel e.1 dropped (List.mem_append_right _ (by simp [← heq]))
      have hjoin' := hti.consistent.selectRelated_eq (hti.step hst).consistent hlinks'
        fun l hl c hc hid => hti.linked_stays hst (List.mem_of_mem_filter hl) hc hid
      exact ⟨ht', hlinks'.trans hlinks, hjoin'.trans hjoin⟩

/-- The state right after the completion of a discovery. -/
lemma completed_of_persisted (h₀ : Initial s₀) (hr : Runs cfg s₀ tr s) {d : ℕ}
    {ins : List Certificate} {links : List DiscoveryCertificate}
    (h : Step cfg s (p, .persisted d ins links) s') :
    s'.store.linksOf d = links ∧ ∃ r ∈ s'.store.discoveryHistory, r.id = d ∧
      r.status = DiscoveryStatus.completed.value := by
  have hinv := h₀.inv.run hr
  obtain ⟨dh, c, hx, rfl⟩ := h.by_self
  obtain ⟨r, hrow, hid⟩ := (hinv.ok p).row dh.id (by rw [hx]; rfl)
  refine ⟨?_, Store.completeRow dh.id r, ?_, (Store.completeRow_id _ r).trans hid, ?_⟩
  · rw [hinv.linksOf_persisted h,
      (h₀.lifeCycle_of_runs hr).linksOf_pending hinv (p := p) (d := dh) (by rw [hx]; rfl)]
    rfl
  · rw [h.store_eq]
    exact List.mem_map_of_mem hrow
  · rw [Store.completeRow, if_pos hid]

/-- A discovery completed and not deleted in a run has the links of its
completion at the end. -/
lemma linksOf_of_persisted (h₀ : Initial s₀) (hr : Runs cfg s₀ tr s) {d : ℕ}
    {ins : List Certificate} {links : List DiscoveryCertificate}
    (hmem : (p, Event.persisted d ins links) ∈ tr)
    (hdel : ∀ q dropped, (q, Event.deleted d dropped) ∉ tr) :
    s.store.linksOf d = links ∧ ∃ r ∈ s.store.discoveryHistory, r.id = d ∧
      r.status = DiscoveryStatus.completed.value := by
  obtain ⟨tr₁, tr₂, m, m', rfl, hr₁, hst, hr₂⟩ := hr.exists_step hmem
  obtain ⟨hlinks, r, hrow, rfl, hstatus⟩ := completed_of_persisted h₀ hr₁ hst
  obtain ⟨hrow', hlinks', -⟩ := (h₀.lifeCycle_of_runs (hr₁.tail hst)).completed_run
    (h₀.inv.run (hr₁.tail hst)) hr₂ hrow hstatus fun q dropped hq => hdel q dropped (by simp [hq])
  exact ⟨hlinks'.trans hlinks, r, hrow', rfl, hstatus⟩

/-- A discovery created in a run and not completed in it has no links. -/
lemma linksOf_of_not_persisted (h₀ : Initial s₀) (hr : Runs cfg s₀ tr s) {d : ℕ}
    (hd : s₀.historySeq ≤ d) (hnot : ∀ q ins links, (q, Event.persisted d ins links) ∉ tr) :
    s.store.linksOf d = [] := by
  induction hr with
  | refl =>
      refine List.filter_eq_nil_iff.mpr fun l hl => ?_
      obtain ⟨r, hr, hid⟩ := h₀.consistent.historyFk l hl
      have hlt := (h₀.history_lt r hr).1
      rw [decide_eq_true_eq]
      omega
  | @tail tr e t t' hr hst ih =>
      have ih := ih fun q ins links hq => hnot q ins links (List.mem_append_left _ hq)
      have hinv := h₀.inv.run hr
      by_cases hdel : ∃ dropped, e.2 = .deleted d dropped
      · obtain ⟨dropped, heq⟩ := hdel
        obtain ⟨q, e⟩ := e
        obtain rfl : e = .deleted d dropped := heq
        exact hinv.linksOf_deleted hst
      · rw [hinv.linksOf_eq hst (fun ins links heq => ?_) (fun dropped heq => hdel ⟨dropped, heq⟩)]
        · exact ih
        · exact hnot e.1 ins links (List.mem_append_right _ (by simp [← heq]))

/-- A completed discovery of the run has been completed in the run. -/
lemma persisted_of_completed (h₀ : Initial s₀) (hr : Runs cfg s₀ tr s) {r : DiscoveryHistory}
    (hmem : r ∈ s.store.discoveryHistory) (hn : s₀.historySeq ≤ r.id)
    (hstatus : r.status = DiscoveryStatus.completed.value) :
    ∃ q ins links, (q, Event.persisted r.id ins links) ∈ tr := by
  induction hr generalizing r with
  | refl => exact absurd (h₀.history_lt r hmem).1 (by omega)
  | @tail tr e t t' hr hst ih =>
      have hinv := h₀.inv.run hr
      obtain ⟨p, e⟩ := e
      rcases hst.status_eq hinv hmem with rfl | ⟨r₀, hr₀, hid, -, hstatus₀⟩
      · have hx : t.procs p = .createSaved r := hst.by_self
        have hnew := (h₀.lifeCycle_of_runs hr).created p r (by rw [hx]; rfl)
        exact absurd (hnew.symm.trans hstatus) (by decide)
      · by_cases hsame : r₀.status = DiscoveryStatus.completed.value
        · obtain ⟨q, ins, links, hq⟩ := ih hr₀ (hid ▸ hn) hsame
          exact ⟨q, ins, links, List.mem_append_left _ (hid ▸ hq)⟩
        · rw [hstatus] at hstatus₀
          cases e with
          | persisted d ins links =>
              by_cases hd : d = r₀.id
              · exact ⟨p, ins, links, by simp [hd, hid]⟩
              · exact absurd (hstatus₀.trans (if_neg hd)).symm hsame
          | failed d uuid reason =>
              by_cases hd : d = r₀.id
              · exact absurd (hstatus₀.trans (if_pos hd)) (by decide)
              · exact absurd (hstatus₀.trans (if_neg hd)).symm hsame
          | _ => exact absurd hstatus₀.symm hsame

/-! ### One call -/

/-- One call of `get_discovery_history_data`: its object is a row of `s₁`, the
count sees the state after `tr₁` and the page query the state after `tr₂`. -/
structure Read (cfg : Settings) (s₁ : State) (tr₁ tr₂ : List (Pid × Event))
    (request : DiscoveryHistoryRequest) (h : DiscoveryHistory)
    (response : DiscoveryHistoryResponse) : Prop where
  fetched : h ∈ s₁.store.discoveryHistory
  answers : ∃ s₂ s₃ ordered, Runs cfg s₁ tr₁ s₂ ∧ Runs cfg s₂ tr₂ s₃ ∧
    OrderedByUuid (s₃.store.selectRelated h.id) ordered ∧
    getDiscoveryHistoryData request h s₂.store ordered = .ok response

/-- What an item of `certificate_data` says about a link. -/
def Describes (s : Store) (l : DiscoveryCertificate) (x : DiscoveryCertificateDto) : Prop :=
  x.uuid = l.uuid ∧ x.metadata = l.metadata ∧
    ∃ c ∈ s.certificate, c.id = l.certificateId ∧ x.base64Content = c.base64content

/-- The data are the page asked for of the links in uuid order. -/
def IsSlice (s : Store) (links : List DiscoveryCertificate) (request : DiscoveryHistoryRequest)
    (data : List DiscoveryCertificateDto) : Prop :=
  ∃ ordered, Rows.OrderBy (·.uuid) links ordered ∧
    List.Forall₂ (Describes s) (Slice.page ordered request.itemsPerPage.toNat request.page) data

/-- The response shows one state of discovery `d`: nothing while in progress,
what it was completed with once completed. -/
structure OneState (tr₀ : List (Pid × Event)) (s₁ : State) (request : DiscoveryHistoryRequest)
    (d : ℕ) (response : DiscoveryHistoryResponse) : Prop where
  inProgress : response.status = DiscoveryStatus.inProgress.value →
    response.totalCertificatesDiscovered = 0 ∧ response.certificateData = []
  completed : response.status = DiscoveryStatus.completed.value →
    ∃ links, Completes d links tr₀ ∧ response.totalCertificatesDiscovered = links.length ∧
      IsSlice s₁.store links request response.certificateData

/-- No commit between the statements of the call changes an answer: while the
object is in progress, a completion that the count or the page query sees; once
it is completed, a DELETE before a statement that had links to answer. -/
structure Undisturbed (d offset : ℕ) (status : String) (tr₀ tr₁ tr₂ : List (Pid × Event)) :
    Prop where
  inProgressCount : status = DiscoveryStatus.inProgress.value →
    ∀ links, Completes d links tr₁ → links.length ≤ 0 ∨ Deletes d tr₁
  inProgressPage : status = DiscoveryStatus.inProgress.value →
    ∀ links, Completes d links (tr₁ ++ tr₂) → links.length ≤ offset ∨ Deletes d (tr₁ ++ tr₂)
  completedCount : status = DiscoveryStatus.completed.value →
    ∀ links, Completes d links tr₀ → Deletes d tr₁ → links.length ≤ 0
  completedPage : status = DiscoveryStatus.completed.value →
    ∀ links, Completes d links tr₀ → Deletes d (tr₁ ++ tr₂) → links.length ≤ offset

/-- The number of links of a discovery created in a run, read off its trace. -/
lemma linksOf_length_le_iff (h₀ : Initial s₀) (hr : Runs cfg s₀ tr s) {d : ℕ}
    (hd : s₀.historySeq ≤ d) (n : ℕ) : (s.store.linksOf d).length ≤ n ↔
      ∀ links, Completes d links tr → links.length ≤ n ∨ Deletes d tr := by
  by_cases hdel : Deletes d tr
  · obtain ⟨q, dropped, hq⟩ := hdel
    simp [(gone_of_runs h₀ hr hq).links, show Deletes d tr from ⟨q, dropped, hq⟩]
  · have hnot : ∀ q dropped, (q, Event.deleted d dropped) ∉ tr := fun q dropped hq =>
      hdel ⟨q, dropped, hq⟩
    constructor
    · rintro hle links ⟨q, ins, hq⟩
      exact .inl ((linksOf_of_persisted h₀ hr hq hnot).1 ▸ hle)
    · intro hall
      by_cases hp : ∃ q ins links, (q, Event.persisted d ins links) ∈ tr
      · obtain ⟨q, ins, links, hq⟩ := hp
        rw [(linksOf_of_persisted h₀ hr hq hnot).1]
        exact (hall links ⟨q, ins, hq⟩).resolve_right hdel
      · rw [linksOf_of_not_persisted h₀ hr hd fun q ins links hq => hp ⟨q, ins, links, hq⟩]
        simp

/-- The page cut out of an ordered answer is a slice of the links. -/
lemma Store.Consistent.isSlice {s : Store} (h : s.Consistent) {d : ℕ}
    {ordered : List (DiscoveryCertificate × Certificate)}
    (hord : OrderedByUuid (s.selectRelated d) ordered) (request : DiscoveryHistoryRequest) :
    IsSlice s (s.linksOf d) request
      ((Slice.page ordered request.itemsPerPage.toNat request.page).map certificateDto) := by
  refine ⟨ordered.map Prod.fst, h.selectRelated_fst d ▸ hord.map, ?_⟩
  rw [Slice.page_map, List.forall₂_map_left_iff, List.forall₂_map_right_iff, List.forall₂_same]
  intro v hv
  have hmem : v ∈ ordered := by
    rw [Slice.page_eq] at hv
    exact List.mem_of_mem_drop (List.mem_of_mem_take hv)
  obtain ⟨-, hc, hid⟩ := Store.mem_selectRelated.mp (hord.perm.mem_iff.mp hmem)
  exact ⟨rfl, rfl, v.2, hc, hid, rfl⟩

/-- A page asked for is empty when it begins past the end. -/
lemma page_eq_nil_iff {α : Type} {request : DiscoveryHistoryRequest}
    (hk : 1 ≤ request.itemsPerPage) (l : List α) :
    Slice.page l request.itemsPerPage.toNat request.page = [] ↔ l.length ≤ request.offset :=
  Slice.page_eq_nil_iff (by omega)

/-- An empty page is the slice asked for when there are no links that far. -/
lemma isSlice_nil_iff {s : Store} {links : List DiscoveryCertificate}
    {request : DiscoveryHistoryRequest} (hk : 1 ≤ request.itemsPerPage) :
    IsSlice s links request [] ↔ links.length ≤ request.offset := by
  constructor
  · rintro ⟨ordered, hord, hall⟩
    rw [← hord.perm.length_eq, ← page_eq_nil_iff hk]
    exact List.forall₂_nil_right_iff.mp hall
  · intro hle
    obtain ⟨ordered, hord⟩ := Rows.OrderBy.exists_orderBy (·.uuid) links
    refine ⟨ordered, hord, ?_⟩
    rw [(page_eq_nil_iff hk ordered).mpr (hord.perm.length_eq.le.trans hle)]
    exact .nil

/-- A discovery whose row is there has not been deleted. -/
lemma not_deletes (h₀ : Initial s₀) (hr : Runs cfg s₀ tr₀ s) {h : DiscoveryHistory}
    (hfetched : h ∈ s.store.discoveryHistory) : ¬ Deletes h.id tr₀ := by
  rintro ⟨q, dropped, hq⟩
  exact (gone_of_runs h₀ hr hq).row h hfetched rfl

lemma Deletes.append {d : ℕ} (h : Deletes d tr) : Deletes d (tr₀ ++ tr) := by
  obtain ⟨q, dropped, hq⟩ := h
  exact ⟨q, dropped, List.mem_append_right _ hq⟩

lemma Deletes.of_append {d : ℕ} (h : Deletes d (tr₀ ++ tr)) (h₀ : ¬ Deletes d tr₀) :
    Deletes d tr := by
  obtain ⟨q, dropped, hq⟩ := h
  exact ⟨q, dropped, (List.mem_append.mp hq).resolve_left fun hq => h₀ ⟨q, dropped, hq⟩⟩

/-- A deleted discovery has no links. -/
lemma linksOf_of_deletes (h₀ : Initial s₀) (hr : Runs cfg s₀ tr s) {d : ℕ} (h : Deletes d tr) :
    s.store.linksOf d = [] := by
  obtain ⟨q, dropped, hq⟩ := h
  exact (gone_of_runs h₀ hr hq).links

/-- A row fetched has the links its discovery was completed with. -/
lemma linksOf_of_completes (h₀ : Initial s₀) (hr : Runs cfg s₀ tr₀ s) {h : DiscoveryHistory}
    (hfetched : h ∈ s.store.discoveryHistory) {links : List DiscoveryCertificate}
    (hl : Completes h.id links tr₀) : s.store.linksOf h.id = links := by
  obtain ⟨q, ins, hq⟩ := hl
  exact (linksOf_of_persisted h₀ hr hq fun q dropped hq =>
    not_deletes h₀ hr hfetched ⟨q, dropped, hq⟩).1

/-- A row fetched in progress has not been completed before. -/
lemma not_completes (h₀ : Initial s₀) (hr : Runs cfg s₀ tr₀ s) {h : DiscoveryHistory}
    (hfetched : h ∈ s.store.discoveryHistory)
    (hst : h.status = DiscoveryStatus.inProgress.value) (links : List DiscoveryCertificate) :
    ¬ Completes h.id links tr₀ := by
  rintro ⟨q, ins, hq⟩
  obtain ⟨-, r, hr', hid, hrst⟩ := linksOf_of_persisted h₀ hr hq fun q dropped hq =>
    not_deletes h₀ hr hfetched ⟨q, dropped, hq⟩
  obtain rfl := Rows.eq_of_key_eq (h₀.inv.run hr).consistent.historyId hr' hfetched hid
  exact absurd (hst.symm.trans hrst) (by decide)

/-- What a statement after `tr` sees of a discovery that was in progress. -/
lemma linksOf_length_le_iff_of_inProgress (h₀ : Initial s₀) (hr : Runs cfg s₀ tr₀ s)
    {h : DiscoveryHistory} (hfetched : h ∈ s.store.discoveryHistory) (hn : s₀.historySeq ≤ h.id)
    (hst : h.status = DiscoveryStatus.inProgress.value) (hr' : Runs cfg s tr s') (n : ℕ) :
    (s'.store.linksOf h.id).length ≤ n ↔
      ∀ links, Completes h.id links tr → links.length ≤ n ∨ Deletes h.id tr := by
  rw [linksOf_length_le_iff h₀ (hr.trans hr') hn n]
  have hnot := not_deletes h₀ hr hfetched
  constructor
  · rintro hall links ⟨q, ins, hq⟩
    exact (hall links ⟨q, ins, List.mem_append_right _ hq⟩).imp_right fun hd => hd.of_append hnot
  · rintro hall links ⟨q, ins, hq⟩
    refine (hall links ⟨q, ins, (List.mem_append.mp hq).resolve_left fun hq => ?_⟩).imp_right
      Deletes.append
    exact not_completes h₀ hr hfetched hst links ⟨q, ins, hq⟩

/-- What a count after `tr` says of a discovery that was completed. -/
lemma linksOf_length_eq_iff_of_completed (h₀ : Initial s₀) (hr : Runs cfg s₀ tr₀ s)
    {h : DiscoveryHistory} (hfetched : h ∈ s.store.discoveryHistory)
    (hst : h.status = DiscoveryStatus.completed.value) {links : List DiscoveryCertificate}
    (hl : Completes h.id links tr₀) (hr' : Runs cfg s tr s') :
    (s'.store.linksOf h.id).length = links.length ↔ (Deletes h.id tr → links.length ≤ 0) := by
  by_cases hd : Deletes h.id tr
  · rw [linksOf_of_deletes h₀ (hr.trans hr') hd.append, List.length_nil]
    constructor
    · intro hlen _
      exact hlen.ge
    · intro hle
      exact (Nat.le_zero.mp (hle hd)).symm
  · have hlinks := ((h₀.lifeCycle_of_runs hr).completed_run (h₀.inv.run hr) hr' hfetched hst
      fun q dropped hq => hd ⟨q, dropped, hq⟩).2.1
    rw [hlinks, linksOf_of_completes h₀ hr hfetched hl]
    exact ⟨fun _ hd' => absurd hd' hd, fun _ => rfl⟩

/-- What a page query after `tr` answers for a discovery that was completed. -/
lemma isSlice_iff_of_completed (h₀ : Initial s₀) (hr : Runs cfg s₀ tr₀ s)
    {h : DiscoveryHistory} (hfetched : h ∈ s.store.discoveryHistory)
    (hst : h.status = DiscoveryStatus.completed.value) {links : List DiscoveryCertificate}
    (hl : Completes h.id links tr₀) (hr' : Runs cfg s tr s') {request : DiscoveryHistoryRequest}
    (hk : 1 ≤ request.itemsPerPage) {ordered : List (DiscoveryCertificate × Certificate)}
    (hord : OrderedByUuid (s'.store.selectRelated h.id) ordered) :
    IsSlice s.store links request
        ((Slice.page ordered request.itemsPerPage.toNat request.page).map certificateDto) ↔
      (Deletes h.id tr → links.length ≤ request.offset) := by
  have hinv := h₀.inv.run (hr.trans hr')
  by_cases hd : Deletes h.id tr
  · -- the join of a deleted discovery is empty
    have hjoin : ordered = [] := by
      have hlen : ordered.length = 0 := by
        calc ordered.length
            = (s'.store.selectRelated h.id).length := hord.perm.length_eq
          _ = (s'.store.linksOf h.id).length := by
              rw [← hinv.consistent.selectRelated_fst, List.length_map]
          _ = 0 := by rw [linksOf_of_deletes h₀ (hr.trans hr') hd.append, List.length_nil]
      exact List.length_eq_zero_iff.mp hlen
    have hpage : (Slice.page ordered request.itemsPerPage.toNat request.page).map certificateDto
        = [] := by
      rw [hjoin, Slice.page_eq]
      simp
    rw [hpage, isSlice_nil_iff hk]
    exact ⟨fun hle _ => hle, fun hle => hle hd⟩
  · have hjoin := ((h₀.lifeCycle_of_runs hr).completed_run (h₀.inv.run hr) hr' hfetched hst
      fun q dropped hq => hd ⟨q, dropped, hq⟩).2.2
    rw [hjoin] at hord
    have hslice := (h₀.inv.run hr).consistent.isSlice hord request
    rw [linksOf_of_completes h₀ hr hfetched hl] at hslice
    exact ⟨fun _ hd' => absurd hd' hd, fun _ => hslice⟩

/-- **When a read shows one state.** For every discovery created in a run and
every call on it, interleaved in any way with the steps of the system, the
response shows one state of the discovery exactly when no commit on it falls
between the statements of the call and changes an answer. -/
theorem read_oneState_iff (h₀ : Initial s₀) (hr : Runs cfg s₀ tr₀ s) {row : DiscoveryHistory}
    (hrow : (q, Event.created row) ∈ tr₀) {request : DiscoveryHistoryRequest}
    (hk : 1 ≤ request.itemsPerPage) {h : DiscoveryHistory} (hid : h.id = row.id)
    {response : DiscoveryHistoryResponse} (hread : Read cfg s tr₁ tr₂ request h response) :
    OneState tr₀ s request h.id response ↔
      Undisturbed h.id request.offset h.status tr₀ tr₁ tr₂ := by
  obtain ⟨hfetched, s₂, s₃, ordered, hr₁, hr₂, hord, hget⟩ := hread
  rw [getDiscoveryHistoryData_eq hk] at hget
  obtain rfl := Except.ok.inj hget
  have hn : s₀.historySeq ≤ h.id := hid ▸ created_le h₀ hr hrow
  have hr₁₂ := hr₁.trans hr₂
  have hlen : ordered.length = (s₃.store.linksOf h.id).length := by
    rw [hord.perm.length_eq, ← (h₀.inv.run (hr.trans hr₁₂)).consistent.selectRelated_fst,
      List.length_map]
  have hdata :
      (Slice.page ordered request.itemsPerPage.toNat request.page).map certificateDto = [] ↔
        (s₃.store.linksOf h.id).length ≤ request.offset := by
    rw [List.map_eq_nil_iff, page_eq_nil_iff hk, hlen]
  constructor
  · rintro ⟨hone, htwo⟩
    constructor
    · intro hst
      exact (linksOf_length_le_iff_of_inProgress h₀ hr hfetched hn hst hr₁ 0).mp (hone hst).1.le
    · intro hst
      exact (linksOf_length_le_iff_of_inProgress h₀ hr hfetched hn hst hr₁₂ _).mp
        (hdata.mp (hone hst).2)
    · intro hst links hl
      obtain ⟨links', hl', htotal, -⟩ := htwo hst
      obtain rfl : links' = links := (linksOf_of_completes h₀ hr hfetched hl').symm.trans
        (linksOf_of_completes h₀ hr hfetched hl)
      exact (linksOf_length_eq_iff_of_completed h₀ hr hfetched hst hl hr₁).mp htotal
    · intro hst links hl
      obtain ⟨links', hl', -, hpage⟩ := htwo hst
      obtain rfl : links' = links := (linksOf_of_completes h₀ hr hfetched hl').symm.trans
        (linksOf_of_completes h₀ hr hfetched hl)
      exact (isSlice_iff_of_completed h₀ hr hfetched hst hl hr₁₂ hk hord).mp hpage
  · rintro ⟨hcount, hpage, hcount', hpage'⟩
    constructor
    · intro hst
      have hzero := (linksOf_length_le_iff_of_inProgress h₀ hr hfetched hn hst hr₁ 0).mpr
        (hcount hst)
      refine ⟨Nat.le_zero.mp hzero, hdata.mpr ?_⟩
      exact (linksOf_length_le_iff_of_inProgress h₀ hr hfetched hn hst hr₁₂ _).mpr (hpage hst)
    · intro hst
      obtain ⟨q, ins, links, hq⟩ := persisted_of_completed h₀ hr hfetched hn hst
      have hl : Completes h.id links tr₀ := ⟨q, ins, hq⟩
      refine ⟨links, hl, ?_, ?_⟩
      · exact (linksOf_length_eq_iff_of_completed h₀ hr hfetched hst hl hr₁).mpr
          (hcount' hst links hl)
      · exact (isSlice_iff_of_completed h₀ hr hfetched hst hl hr₁₂ hk hord).mpr
          (hpage' hst links hl)

/-- What `start_discovery` answers when its thread has completed the discovery
before the count. -/
def sampleResponse : DiscoveryHistoryResponse :=
  ⟨"d", 7, DiscoveryStatus.inProgress.value, [certificateDto (sampleLink, sampleCertificate)],
    none, 1⟩

lemma sample_read : ∃ s, Runs ⟨3600, 500⟩ emptyState sampleCreation s ∧
    Read ⟨3600, 500⟩ s sampleThread [] startDiscoveryRequest sampleRow sampleResponse := by
  obtain ⟨s', h, hstore, -⟩ := sample_run ⟨3600, 500⟩
  obtain ⟨s, h₁, h₂⟩ := h.runs.split
  obtain ⟨m, -, hst⟩ := h₁.of_append_singleton
  have hjoin : sampleStore.selectRelated sampleRow.id = [(sampleLink, sampleCertificate)] := rfl
  refine ⟨s, h₁, ?_, s', s', [(sampleLink, sampleCertificate)], h₂, .refl, ?_, ?_⟩
  · rw [hst.store_eq]
    exact List.mem_append_right _ List.mem_cons_self
  · rw [hstore, hjoin]
    exact ⟨.refl _, by simp⟩
  · rw [hstore]
    rfl

theorem read_oneState_iff_sample : ∃ s,
    Read ⟨3600, 500⟩ s sampleThread [] startDiscoveryRequest sampleRow sampleResponse ∧
      (OneState sampleCreation s startDiscoveryRequest sampleRow.id sampleResponse ↔
        Undisturbed sampleRow.id startDiscoveryRequest.offset sampleRow.status sampleCreation
          sampleThread []) := by
  obtain ⟨s, hr, hread⟩ := sample_read
  exact ⟨s, hread, read_oneState_iff emptyState_initial hr
    (show (0, Event.created sampleRow) ∈ sampleCreation by simp [sampleCreation]) (by decide) rfl
    hread⟩

/-- `start_discovery` answers `inProgress` and shows the certificates of the
completed discovery. -/
theorem startDiscovery_mixes_states : ∃ s,
    Runs ⟨3600, 500⟩ emptyState sampleCreation s ∧
      (0, Event.created sampleRow) ∈ sampleCreation ∧
      Read ⟨3600, 500⟩ s sampleThread [] startDiscoveryRequest sampleRow sampleResponse ∧
      ¬ OneState sampleCreation s startDiscoveryRequest sampleRow.id sampleResponse := by
  obtain ⟨s, hr, hread⟩ := sample_read
  exact ⟨s, hr, by simp [sampleCreation], hread, fun hone => by
    simpa [sampleResponse] using (hone.inProgress rfl).1⟩

end AdcsConnector
