/-
A discovery from its request to the pages that are read: the scripts it sends,
the rows it collects, and what a client sees of them once it is completed.

* `Selection`: what a request of a discovery resolves to before a session is
  opened;
* `dumpScripts`: the scripts that one query sends, page after page;
* `collectCertificates_sends`: against a host with a database that does not
  change the collection returns all rows, leaves no shell open, and sends the
  dump scripts of every query in order and nothing else;
* `discovery_shows_rows`: after the completion, and until a DELETE, the pages that
  are read are together the rows of the host, whatever else runs.
-/
import AdcsConnector.Collection
import AdcsConnector.Store.Paging

namespace AdcsConnector

open Program

/-! ### The scripts of a collection -/

/-- The wire after more scripts were run on it. -/
def Wire.send (w : Wire) (scripts : List String) : Wire := { w with sent := w.sent ++ scripts }

@[simp] lemma Wire.send_nil (w : Wire) : w.send [] = w := by
  simp [Wire.send]

@[simp] lemma Wire.send_send (w : Wire) (scripts scripts' : List String) :
    (w.send scripts).send scripts' = w.send (scripts ++ scripts') := by
  simp [Wire.send]

/-- A loop whose body returns, appends `g a` and sends the scripts of `a`. -/
lemma returns_foldlM_send {α β : Type} {f : List β → α → Session (List β)} {g : α → List β}
    {scripts : α → List String} {l : List α}
    (h : ∀ a ∈ l, ∀ total w, Returns (f total a) w (total ++ g a) (w.send (scripts a)))
    (total : List β) (w : Wire) :
    Returns (l.foldlM f total) w (total ++ l.flatMap g) (w.send (l.flatMap scripts)) := by
  induction l generalizing total w with
  | nil => simp
  | cons a l ih =>
      rw [List.foldlM_cons, returns_bind]
      have hrest := ih (fun a ha => h a (List.mem_cons_of_mem _ ha)) (total ++ g a)
        (w.send (scripts a))
      rw [List.append_assoc, Wire.send_send] at hrest
      exact ⟨_, _, h a List.mem_cons_self total w, hrest⟩

/-- The script of a page, counted from zero. -/
def pageScript (ca : AuthorityData) (template : Option TemplateData) (issuedAfter : Option String)
    (pageSize : ℤ) (page : ℕ) : String :=
  dumpCertificatesScript ca template issuedAfter (page + 1) pageSize

/-- The scripts of one query with `n` rows: its pages up to the first one that is
not full. -/
def dumpScripts (ca : AuthorityData) (template : Option TemplateData) (issuedAfter : Option String)
    (pageSize : ℤ) (n : ℕ) : List String :=
  (List.range (n / pageSize.toNat + 1)).map (pageScript ca template issuedAfter pageSize)

section Loops

variable {host : Host} {rows : AuthorityData → Option TemplateData → List ParseResult}
  {cas : List AuthorityData} {templates : List TemplateData} {issuedAfter : Option String}
  {pageSize : ℤ} {fuel : ℕ} {ca : AuthorityData} {template : Option TemplateData}

lemma Serves.returns_fetchPage (h : Serves host rows cas templates issuedAfter pageSize)
    (hca : ca ∈ cas) (htemplate : template ∈ queries templates) (page : ℕ) (w : Wire) :
    Returns (fetchPage host issuedAfter pageSize ca template (page + 1)) w
      (Slice.page (rows ca template) pageSize.toNat page)
      (w.send [pageScript ca template issuedAfter pageSize page]) := by
  obtain ⟨result, text, hanswer, hstatus, hout, hrender⟩ := h ca hca template htemplate page w
  exact AdcsConnector.returns_fetchPage hanswer hstatus (parseCertificates_of_renders hrender hout)

/-- The loop from page `page + 1` on: it sends the pages after it, up to the first
one that is not full. -/
lemma Serves.returns_whileFull (h : Serves host rows cas templates issuedAfter pageSize)
    (hs : 1 ≤ pageSize) (hca : ca ∈ cas) (htemplate : template ∈ queries templates)
    (pre : List ParseResult) (page : ℕ) (w : Wire)
    (hpage : page * pageSize.toNat ≤ (rows ca template).length)
    (hfuel : (rows ca template).length < page * pageSize.toNat + fuel) :
    Returns (whileFull host issuedAfter pageSize ca template fuel (page + 1)
        (Slice.page (rows ca template) pageSize.toNat page)
        (pre ++ (rows ca template).take ((page + 1) * pageSize.toNat))) w
      (pre ++ rows ca template)
      (w.send ((List.range' (page + 1) ((rows ca template).length / pageSize.toNat - page)).map
        (pageScript ca template issuedAfter pageSize))) := by
  obtain ⟨k, rfl⟩ : ∃ k : ℕ, pageSize = k := ⟨pageSize.toNat, by omega⟩
  have hk : 1 ≤ k := by omega
  rw [Int.toNat_natCast] at *
  induction fuel generalizing page w with
  | zero => omega
  | succ fuel ih =>
      rw [whileFull]
      by_cases hfull : (page + 1) * k ≤ (rows ca template).length
      · have hlength := (Slice.page_length_eq_iff hk).mpr hfull
        have hnext : (page + 1) * k + fuel = page * k + fuel + k := by
          rw [Nat.add_mul]
          omega
        have hfetch := h.returns_fetchPage hca htemplate (page + 1) w
        rw [Int.toNat_natCast] at hfetch
        have hrest := ih (page + 1) (w.send [pageScript ca template issuedAfter k (page + 1)]) hfull
          (by omega)
        have hcount : (rows ca template).length / k - page =
            (rows ca template).length / k - (page + 1) + 1 := by
          have hle := (Nat.le_div_iff_mul_le (by omega)).mpr hfull
          omega
        rw [if_pos (by exact_mod_cast hlength), returns_bind, hcount, List.range'_succ,
          List.map_cons]
        refine ⟨_, _, hfetch, ?_⟩
        rw [Wire.send_send] at hrest
        rwa [List.append_assoc, Slice.take_append_page]
      · have hlength : (Slice.page (rows ca template) k page).length ≠ k := fun heq =>
          hfull ((Slice.page_length_eq_iff hk).mp heq)
        have hcount : (rows ca template).length / k - page = 0 := by
          have hlt := (Nat.div_lt_iff_lt_mul (by omega)).mpr (by omega :
            (rows ca template).length < (page + 1) * k)
          omega
        rw [if_neg (by exact_mod_cast hlength), List.take_of_length_le (by omega), hcount]
        exact returns_pure.mpr ⟨rfl, by simp⟩

/-- One query collects its rows and sends the scripts of its pages. -/
lemma Serves.returns_collectQuery (h : Serves host rows cas templates issuedAfter pageSize)
    (hs : 1 ≤ pageSize) (hca : ca ∈ cas) (htemplate : template ∈ queries templates)
    (hfuel : (rows ca template).length < fuel) (total : List ParseResult) (w : Wire) :
    Returns (collectQuery host issuedAfter pageSize fuel ca total template) w
      (total ++ rows ca template)
      (w.send (dumpScripts ca template issuedAfter pageSize (rows ca template).length)) := by
  have hfetch := h.returns_fetchPage hca htemplate 0 w
  have hrest := h.returns_whileFull hs hca htemplate total 0
    (w.send [pageScript ca template issuedAfter pageSize 0]) (by omega)
    (show _ < 0 * pageSize.toNat + fuel by omega)
  have hfirst := Slice.take_append_page (rows ca template) pageSize.toNat 0
  rw [Nat.zero_mul, List.take_zero, List.nil_append] at hfirst
  rw [collectQuery, returns_bind]
  refine ⟨_, _, hfetch, ?_⟩
  rw [← hfirst, Wire.send_send] at hrest
  rw [dumpScripts, List.range_succ_eq_map]
  rw [List.range'_eq_map_range] at hrest
  simpa [Nat.add_comm 1] using hrest

/-- All dump scripts of a collection, in the order of the authorities and the
templates. -/
def allDumpScripts (rows : AuthorityData → Option TemplateData → List ParseResult)
    (cas : List AuthorityData) (templates : List TemplateData) (issuedAfter : Option String)
    (pageSize : ℤ) : List String :=
  cas.flatMap fun ca => (queries templates).flatMap fun template =>
    dumpScripts ca template issuedAfter pageSize (rows ca template).length

lemma Serves.returns_collectCas (h : Serves host rows cas templates issuedAfter pageSize)
    (hs : 1 ≤ pageSize) (hfuel : (allRows rows cas templates).length < fuel) (w : Wire) :
    Returns (collectCas host templates issuedAfter pageSize fuel cas) w
      (allRows rows cas templates)
      (w.send (allDumpScripts rows cas templates issuedAfter pageSize)) := by
  refine returns_foldlM_send (fun ca hca total w => ?_) [] w
  refine returns_foldlM_send (fun template htemplate total w => ?_) total w
  have hle := length_le_allRows rows hca htemplate
  exact h.returns_collectQuery hs hca htemplate (by omega) total w

end Loops

/-! ### The collection as a whole -/

/-- What a request of a discovery resolves to before its session is opened. -/
structure Selection (env : Environment) (attributes : List Attribute) where
  uuid : String
  authority : env.AuthorityInstance
  cas : List AuthorityData
  templates : List TemplateData
  host : Host
  uuid_eq : (getAttributeValue "discovery_authority_instance" attributes).authorityInstanceUuid =
    .ok uuid
  authority_eq : env.authorityInstance uuid = .ok authority
  cas_eq : selectCas attributes = .ok cas
  templates_eq : (getAttributeValueList "discovery_template_name" attributes).mapM
    AttributeData.templateData = .ok templates
  isDate : (getAttributeValue "discovery_issued_after" attributes).IsDate
  host_eq : env.session authority = .ok host

namespace Selection

variable {env : Environment} {attributes : List Attribute}

/-- The date of the request. -/
def issuedAfter (_ : Selection env attributes) : Option String :=
  (getAttributeValue "discovery_issued_after" attributes).date

/-- The listing of the authorities is asked for when none is selected. -/
def listScripts (sel : Selection env attributes) : List String :=
  if sel.cas = [] then [getCasScript] else []

/-- The host lets a shell be opened and closed, and lists `cas` when it is asked. -/
structure Available (sel : Selection env attributes) (cas : List AuthorityData) : Prop where
  openShell : ∀ w, sel.host.openShell w = .ok ()
  closeShell : ∀ w, sel.host.closeShell w = .ok ()
  selected : sel.cas ≠ [] → cas = sel.cas
  listed : sel.cas = [] → ∀ w, ∃ result, sel.host.powershell w getCasScript = .ok result ∧
    result.statusCode = 0 ∧ parseAuthorityData env.eval result = .ok cas

lemma Available.returns_listCas {sel : Selection env attributes} {cas : List AuthorityData}
    (h : sel.Available cas) (w : Wire) :
    Returns (listCas env.eval sel.host sel.cas) w cas (w.send sel.listScripts) := by
  rw [listCas, listScripts]
  split_ifs with hnone
  · obtain ⟨result, hanswer, hstatus, hparse⟩ := h.listed hnone w
    rw [returns_bind]
    obtain ⟨s, hdecode⟩ := exists_decode_of_parseAuthorityData hparse
    exact ⟨result, _, returns_runPs.mpr ⟨hanswer, .of_decode _ hdecode hstatus, rfl⟩,
      returns_lift.mpr ⟨hparse, rfl⟩⟩
  · exact returns_pure.mpr ⟨(h.selected hnone).symm, (Wire.send_nil w).symm⟩

/-- A session goes on with what the request resolves to. -/
lemma inSession_eq (sel : Selection env attributes) {α : Type}
    (loops : Host → List TemplateData → Option String → List AuthorityData → Session α) :
    inSession env attributes loops = (do
      connect sel.host
      let cas ← listCas env.eval sel.host sel.cas
      let collected ← loops sel.host sel.templates sel.issuedAfter cas
      disconnect sel.host
      return (cas, collected)) := by
  rw [inSession, sel.uuid_eq]
  simp only [lift_ok, pure_bind, sel.authority_eq, sel.cas_eq, sel.templates_eq, sel.host_eq]
  rfl

/-- A session around loops that send scripts sends them after the listing, and
leaves no shell open. -/
lemma Available.returns_inSession {sel : Selection env attributes} {cas : List AuthorityData}
    (h : sel.Available cas) {α : Type} {a : α} {scripts : List String}
    {loops : Host → List TemplateData → Option String → List AuthorityData → Session α}
    (hloops : ∀ w, Returns (loops sel.host sel.templates sel.issuedAfter cas) w a (w.send scripts))
    (w : Wire) :
    Returns (inSession env attributes loops) w (cas, a) (w.send (sel.listScripts ++ scripts)) := by
  have hconnect : Returns (connect sel.host) w () { w with openShells := w.openShells + 1 } := by
    rw [Returns, connect, h.openShell]
  rw [sel.inSession_eq, returns_bind]
  refine ⟨(), _, hconnect, ?_⟩
  rw [returns_bind]
  refine ⟨cas, _, h.returns_listCas _, ?_⟩
  rw [returns_bind]
  refine ⟨a, _, hloops _, ?_⟩
  rw [returns_bind]
  refine ⟨(), _, ?_, returns_pure.mpr ⟨rfl, rfl⟩⟩
  rw [Returns, disconnect, h.closeShell]
  simp [Wire.send]

end Selection

variable {env : Environment} {attributes : List Attribute} {cas : List AuthorityData}
  {rows : AuthorityData → Option TemplateData → List ParseResult} {fuel : ℕ}

/-- **What a collection sends.** A request that resolves to an available host
with a database that does not change, with any page size of at least one and
enough fuel: the collection returns the authorities and all rows of all queries,
it leaves no shell open, and the scripts it sends are the listing of the
authorities when none was selected and, for every authority, every template and
in this order, the pages of the query up to the first one that is not full. -/
theorem collectCertificates_sends (sel : Selection env attributes) (havailable : sel.Available cas)
    (hserves : Serves sel.host rows cas sel.templates sel.issuedAfter env.searchPageSize)
    (hs : 1 ≤ env.searchPageSize) (hfuel : (allRows rows cas sel.templates).length < fuel)
    (w : Wire) :
    Returns (collectCertificates env fuel attributes) w (cas, allRows rows cas sel.templates)
      (w.send (sel.listScripts ++
        allDumpScripts rows cas sel.templates sel.issuedAfter env.searchPageSize)) :=
  havailable.returns_inSession (fun w => hserves.returns_collectCas hs hfuel w) w

/-- What a collection returns against a serving host is all its rows. -/
lemma Selection.collected_eq (sel : Selection env attributes)
    (hserves : Serves sel.host rows cas sel.templates sel.issuedAfter env.searchPageSize)
    (hs : 1 ≤ env.searchPageSize) (hfuel : (allRows rows cas sel.templates).length < fuel)
    {total : List ParseResult} {w w' : Wire}
    (h : Returns (collectCertificates env fuel attributes) w (cas, total) w') :
    total = allRows rows cas sel.templates := by
  rw [collectCertificates, sel.inSession_eq] at h
  simp only [returns_bind, returns_pure] at h
  obtain ⟨_, _, -, cas', w₁, -, total', w₂, hloops, _, _, -, heq, -⟩ := h
  obtain ⟨rfl, rfl⟩ := Prod.mk.inj heq
  exact (returns_unique hloops (hserves.returns_collectCas hs hfuel w₁)).1

/-! ### From the rows to the pages -/

/-- What a client sees of a row of the host: the certificate, and the metadata made
of the first authority and the template of the row. -/
def shown (cas : List AuthorityData) (row : ParseResult) :
    String × Option (List MetaAttribute) :=
  (row.certificate, (getCertificateMeta cas row.template).toOption)

variable {cfg : Settings} {s₀ m m' : State} {p : Pid} {tr : List (Pid × Event)} {d k : ℕ}
  {ins : List Certificate} {links : List DiscoveryCertificate} {dh : DiscoveryHistory}
  {c : Collected} {w w' : Wire}

/-- A link joined with its certificate shows the row it was written for. -/
lemma Inv.forall₂_shown (hinv : Inv m) (hinj : m.contents.InjOn certificateFingerprint)
    (hx : m.procs p = .completed dh c)
    (hall : List.Forall₂ (LinkTo m.store.certificate d c.cas) c.totalCertificates links) :
    List.Forall₂ (fun row link => ∀ k ∈ m.store.certificate, k.id = link.certificateId →
      shown c.cas row = (k.base64content, link.metadata)) c.totalCertificates links := by
  have hcontents := hinv.contents_of_linkTo hinj hx hall
  refine List.forall₂_iff_zip.mpr ⟨hall.length_eq, fun {row link} hmem k hk hid => ?_⟩
  obtain ⟨k', hk', hid', hcontent⟩ := (List.forall₂_iff_zip.mp hcontents).2 hmem
  obtain ⟨metadata, hmeta, hlink⟩ := ((List.forall₂_iff_zip.mp hall).2 hmem).metadata_eq
  obtain rfl := Rows.eq_of_key_eq hinv.consistent.certificateId hk hk' (hid.trans hid'.symm)
  rw [shown, hcontent, hmeta, hlink]
  rfl

/-- What a client sees of an item of `certificate_data`, its uuid apart. -/
def DiscoveryCertificateDto.seen (x : DiscoveryCertificateDto) :
    String × Option (List MetaAttribute) :=
  (x.base64Content, x.metadata)

/-- The links in order show the collected rows, in some order. -/
lemma Inv.seen_perm (hinv : Inv m) (hinj : m.contents.InjOn certificateFingerprint)
    (hx : m.procs p = .completed dh c)
    (hall : List.Forall₂ (LinkTo m.store.certificate d c.cas) c.totalCertificates links)
    {ordered : List (DiscoveryCertificate × Certificate)}
    (hord : LinksInOrder m.store links ordered) :
    ((ordered.map certificateDto).map DiscoveryCertificateDto.seen).Perm
      (c.totalCertificates.map (shown c.cas)) := by
  have hshown := (hinv.forall₂_shown hinj hx hall).flip
  obtain ⟨total, htotal, hperm⟩ := List.perm_comp_forall₂ hord.links hshown
  have heq : (ordered.map certificateDto).map DiscoveryCertificateDto.seen =
      total.map (shown c.cas) := by
    rw [List.forall₂_map_left_iff] at htotal
    rw [← List.forall₂_eq_eq_eq, List.map_map, List.forall₂_map_left_iff,
      List.forall₂_map_right_iff]
    refine (Rows.forall₂_imp_right htotal.flip fun row v hv hrow => ?_).flip
    obtain ⟨hcertificate, hid⟩ := hord.certificate v hv
    exact (hrow v.2 hcertificate hid).symm
  rw [heq]
  exact hperm.map _

/-- **A discovery shows the rows of the host.** A thread whose collection was made
against a host with a database that does not change has completed its discovery.
From then on and until the discovery is deleted, whatever other discoveries,
deletes and sweeps do between the statements of the calls, the pages of `k ≥ 1`
items are together all rows of all queries of the request, each as often as the
host has it, with its certificate and its metadata. -/
theorem discovery_shows_rows (h₀ : Initial s₀) (hr : Runs cfg s₀ tr m)
    (hst : Step cfg m (p, .persisted d ins links) m') (hx : m'.procs p = .completed dh c)
    (hcollect : Returns (collectCertificates env fuel attributes) w
      (c.cas, c.totalCertificates) w')
    (sel : Selection env attributes)
    (hserves : Serves sel.host rows c.cas sel.templates sel.issuedAfter env.searchPageSize)
    (hs : 1 ≤ env.searchPageSize) (hfuel : (allRows rows c.cas sel.templates).length < fuel)
    (hinj : m'.contents.InjOn certificateFingerprint) (hnodup : (links.map (·.uuid)).Nodup)
    (hk : 1 ≤ k) (responses : ℕ → DiscoveryHistoryResponse)
    (hread : ∀ i < ((allRows rows c.cas sel.templates).length + k - 1) / k,
      LaterRead cfg m' d ⟨i + 1, k⟩ (responses i)) :
    (((List.range (((allRows rows c.cas sel.templates).length + k - 1) / k)).flatMap
        fun i => (responses i).certificateData).map DiscoveryCertificateDto.seen).Perm
      ((allRows rows c.cas sel.templates).map (shown c.cas)) := by
  have htotal := sel.collected_eq hserves hs hfuel hcollect
  have hk' : (1 : ℤ) ≤ k := by exact_mod_cast hk
  rw [← htotal] at hread ⊢
  have hinv := h₀.inv.run hr
  have hinv' := hinv.step hst
  obtain ⟨hlinks, r, hmem, rfl, hstatus⟩ := completed_of_persisted h₀ hr hst
  have hall : List.Forall₂ (LinkTo m'.store.certificate r.id c.cas) c.totalCertificates links := by
    obtain ⟨dh', c', hsaved, hcompleted, hid⟩ := hst.completed_of_persisted
    cases hx.symm.trans hcompleted
    have hknows := (hinv.ok p).knows
    rw [hsaved] at hknows
    rw [hst.store_eq, ← hid]
    exact hknows
  have hnodup' : ((m'.store.linksOf r.id).map (·.uuid)).Nodup := by rwa [hlinks]
  obtain ⟨ordered, hord⟩ := Rows.OrderBy.exists_orderBy
    (fun v : DiscoveryCertificate × Certificate => v.1.uuid) (m'.store.selectRelated r.id)
  have horder := hinv'.consistent.linksInOrder hnodup' hord
  rw [hlinks] at horder
  have hlength : ordered.length = c.totalCertificates.length := by
    rw [hall.length_eq, ← horder.links.length_eq, List.length_map]
  have hpages : (List.range ((c.totalCertificates.length + k - 1) / k)).flatMap
      (fun i => (responses i).certificateData) = ordered.map certificateDto := by
    rw [← Slice.flatMap_page_ceil (ordered.map certificateDto) hk, List.length_map, hlength]
    refine List.flatMap_congr fun i hi => ?_
    rw [(hread i (List.mem_range.mp hi)).eq (h₀.lifeCycle_of_runs (hr.tail hst)) hinv' hmem hstatus
      hnodup' hord hk', Slice.page_map]
    simp [DiscoveryHistoryRequest.page]
  rw [hpages]
  exact hinv'.seen_perm hinj hx hall horder

/-! ### A sample request -/

/-- The rows of the sample discovery, one on a page. -/
def labDump (script : String) : List ParseResult :=
  if script = pageScript sampleAuthority none none 1 0 then [⟨"WebServer", "abc"⟩]
  else if script = pageScript sampleAuthority none none 1 1 then [⟨"User", "abd"⟩]
  else []

def labEnvironment : Environment where
  AuthorityInstance := Unit
  authorityInstance _ := .ok ()
  session _ := .ok (printingHost labDump)
  eval _ _ := .error .syntaxError
  searchPageSize := 1

/-- A request for the sample authority and all templates. -/
def labRequest : List Attribute :=
  [⟨"discovery_authority_instance", [.authorityInstance "Lab" "7"]⟩,
    ⟨"discovery_select_ca_method", [.str "search"]⟩,
    ⟨"discovery_ca_name", [.authority sampleAuthority]⟩]

/-- What the sample request resolves to. -/
def labSelection : Selection labEnvironment labRequest where
  uuid := "7"
  authority := ()
  cas := [sampleAuthority]
  templates := []
  host := printingHost labDump
  uuid_eq := rfl
  authority_eq := rfl
  cas_eq := rfl
  templates_eq := rfl
  isDate := trivial
  host_eq := rfl

lemma labSelection_available : labSelection.Available pairCollected.cas where
  openShell _ := rfl
  closeShell _ := rfl
  selected _ := rfl
  listed h := by cases h

lemma labDump_page (page : ℕ) : labDump (pageScript sampleAuthority none none 1 page) =
    Slice.page pairCollected.totalCertificates 1 page := by
  have hnumber : ∀ {i : ℕ}, pageScript sampleAuthority none none 1 page =
      pageScript sampleAuthority none none 1 i → page = i := fun hscript => by
    have := baseCommand_page (dumpCertificatesScript_baseCommand hscript)
    omega
  rw [labDump]
  split_ifs with h₀ h₁
  · rw [hnumber h₀]
    rfl
  · rw [hnumber h₁]
    rfl
  · refine ((Slice.page_eq_nil_iff (by decide)).mpr ?_).symm
    show 2 ≤ page * 1
    by_contra hlt
    obtain rfl | rfl : page = 0 ∨ page = 1 := by omega
    · exact h₀ rfl
    · exact h₁ rfl

lemma labDump_serves : Serves (printingHost labDump)
    (fun _ _ => pairCollected.totalCertificates) pairCollected.cas [] none 1 := by
  intro ca hca template htemplate page w
  obtain rfl := List.mem_singleton.mp hca
  obtain rfl := List.mem_singleton.mp htemplate
  refine ⟨printed (Slice.page pairCollected.totalCertificates 1 page), _, ?_, rfl, rfl, ?_⟩
  · exact congrArg (fun rows => Except.ok (printed rows)) (labDump_page page)
  refine renders_formatList fun row hrow => ?_
  rw [Slice.page_eq] at hrow
  have hmem := List.mem_of_mem_drop (List.mem_of_mem_take hrow)
  fin_cases hmem
  · exact ⟨by decide, by decide, List.all_eq_true.mp (by decide)⟩
  · exact ⟨by decide, by decide, List.all_eq_true.mp (by decide)⟩

/-- The sample request sends three scripts: its first two pages are full. -/
theorem collectCertificates_sends_sample :
    Returns (collectCertificates labEnvironment 3 labRequest) ⟨[], 0⟩
      (pairCollected.cas, pairCollected.totalCertificates)
      ⟨[pageScript sampleAuthority none none 1 0, pageScript sampleAuthority none none 1 1,
        pageScript sampleAuthority none none 1 2], 0⟩ :=
  collectCertificates_sends labSelection labSelection_available labDump_serves (by decide)
    (by decide) ⟨[], 0⟩

lemma returns_pair : ∃ w, Returns (collectCertificates labEnvironment 3 labRequest) ⟨[], 0⟩
    (pairCollected.cas, pairCollected.totalCertificates) w := by
  have hserves : Serves labSelection.host (fun _ _ => pairCollected.totalCertificates)
      pairCollected.cas labSelection.templates labSelection.issuedAfter
      labEnvironment.searchPageSize := labDump_serves
  have hs : 1 ≤ labEnvironment.searchPageSize := by decide
  have hloops := fun w =>
    hserves.returns_collectCas hs (show (allRows _ _ _).length < 3 by decide) w
  exact ⟨_, @Selection.Available.returns_inSession _ _ _ _ labSelection_available _ _ _
    (fun host templates issuedAfter => collectCas host templates issuedAfter
      labEnvironment.searchPageSize 3) hloops ⟨[], 0⟩⟩

/-- The contents at hand when the first of the two sample discoveries is stored. -/
lemma stored_contents : ∀ content ∈ storedState.contents, content = "abc" ∨ content = "abd" := by
  rintro content (⟨k, hk, rfl⟩ | ⟨q, dh, c, hq, cert, hcert, rfl⟩)
  · fin_cases hk <;> simp
  · obtain rfl : q = 0 := by
      rcases q with _ | _ | q
      · rfl
      all_goals cases hq
    cases hq
    fin_cases hcert <;> simp

lemma stored_injOn : storedState.contents.InjOn certificateFingerprint := by
  intro x hx y hy heq
  rcases stored_contents x hx with rfl | rfl <;> rcases stored_contents y hy with rfl | rfl
  · rfl
  · exact absurd heq fingerprint_abc_ne
  · exact absurd heq.symm fingerprint_abc_ne
  · rfl

/-- The two pages read after the sample discovery, and with another one between them,
are the rows of the host. -/
theorem discovery_shows_rows_sample : Runs ⟨3600, 500⟩ emptyState
      (overlapCollection ++ overlapInsertion ++ overlapStorage) storedState ∧
    LaterRead ⟨3600, 500⟩ storedState 1 ⟨1, 1⟩ (pairPage 0) ∧
    LaterRead ⟨3600, 500⟩ storedState 1 ⟨2, 1⟩ (pairPage 1) ∧
    (((pairPage 0).certificateData ++ (pairPage 1).certificateData).map
      DiscoveryCertificateDto.seen).Perm
        (pairCollected.totalCertificates.map (shown pairCollected.cas)) := by
  have h := (overlap_stored ⟨3600, 500⟩).runs
  have hfirst := laterRead_pairPage ⟨3600, 500⟩ 0 .refl (by simp [Deletes]) List.mem_cons_self
    rfl rfl
  have hsecond := laterRead_pairPage ⟨3600, 500⟩ 1 (overlap_shares ⟨3600, 500⟩).runs
    (by simp [Deletes, overlapSharing, statements]) List.mem_cons_self rfl rfl
  have hruns : Runs ⟨3600, 500⟩ emptyState ((overlapCollection ++ overlapInsertion ++
      statements [0, 0, 0]) ++ [(0, .persisted 1 pairCertificates pairLinks)]) storedState := by
    simpa only [overlapStorage, List.append_assoc] using h
  obtain ⟨m, hr, hst⟩ := hruns.of_append_singleton
  obtain ⟨w, hcollect⟩ := returns_pair
  have hperm := discovery_shows_rows (k := 1) emptyState_initial hr hst rfl hcollect labSelection
    labDump_serves (by decide) (by decide) stored_injOn (by decide) le_rfl pairPage fun i hi => by
      obtain rfl | rfl : i = 0 ∨ i = 1 := by
        have hlt : i < 2 := hi
        omega
      · exact hfirst
      · exact hsecond
  exact ⟨h, hfirst, hsecond, hperm⟩

end AdcsConnector
