/-
The collection of a discovery while the database of the certification authority
changes: certificates are issued, and rows are removed, between one page and the next.

* `Contents`: the rows of every query, by the scripts that have been run;
* `ServesContents`: a host that answers every page from the rows as they are then;
* `ServesContents.of_collectQuery`: a query reads its rows page by page as they change;
* `collectCertificates_changing`: nothing is missed while rows are only added, nothing
  is collected twice while rows are only removed, and every query is a snapshot of its
  rows while rows are only appended.
-/
import AdcsConnector.Discovery
import AdcsConnector.Library.Paging

namespace AdcsConnector

open Program

/-! ### A database that changes -/

/-- The rows of every query, when these scripts have been run. -/
abbrev Contents := List String → AuthorityData → Option TemplateData → List ParseResult

namespace Contents

/-- Rows are added, anywhere. -/
def Gains (rows : Contents) : Prop := ∀ sent sent' ca template, sent <+: sent' →
  (rows sent ca template).Sublist (rows sent' ca template)

/-- Rows are removed. -/
def Loses (rows : Contents) : Prop := ∀ sent sent' ca template, sent <+: sent' →
  (rows sent' ca template).Sublist (rows sent ca template)

/-- Rows are added at the end. -/
def Appends (rows : Contents) : Prop := ∀ sent sent' ca template, sent <+: sent' →
  rows sent ca template <+: rows sent' ca template

end Contents

/-- Page `page + 1` of a query is answered with the rows of that page as they are when
it is asked for, rendered. -/
def ServesContents (host : Host) (rows : Contents) (cas : List AuthorityData)
    (templates : List TemplateData) (issuedAfter : Option String) (pageSize : ℤ) : Prop :=
  ∀ ca ∈ cas, ∀ template ∈ queries templates, ∀ page w, ∃ result text,
    host.powershell w (dumpCertificatesScript ca template issuedAfter (page + 1) pageSize) =
        .ok result ∧
      result.statusCode = 0 ∧ result.stdOut = text.toUTF8 ∧
      Renders (Slice.page (rows w.sent ca template) pageSize.toNat page) text

section Query

variable {host : Host} {rows : Contents} {cas : List AuthorityData}
  {templates : List TemplateData} {issuedAfter : Option String} {pageSize : ℤ} {fuel : ℕ}
  {ca : AuthorityData} {template : Option TemplateData}

/-- The scripts of the first `n` pages. -/
def pageScripts (ca : AuthorityData) (template : Option TemplateData) (issuedAfter : Option String)
    (pageSize : ℤ) (n : ℕ) : List String :=
  (List.range n).map (pageScript ca template issuedAfter pageSize)

lemma pageScripts_succ (n : ℕ) : pageScripts ca template issuedAfter pageSize (n + 1) =
    pageScripts ca template issuedAfter pageSize n ++
      [pageScript ca template issuedAfter pageSize n] := by
  simp [pageScripts, List.range_succ]

lemma pageScripts_mono {m n : ℕ} (h : m ≤ n) : pageScripts ca template issuedAfter pageSize m <+:
    pageScripts ca template issuedAfter pageSize n :=
  Nat.le_induction List.prefix_rfl
    (fun n _ ih => ih.trans (pageScripts_succ n ▸ List.prefix_append ..)) n h

/-- The rows of a query when its page `i` is asked for. -/
def rowsAt (rows : Contents) (sent : List String) (ca : AuthorityData)
    (template : Option TemplateData) (issuedAfter : Option String) (pageSize : ℤ) (i : ℕ) :
    List ParseResult :=
  rows (sent ++ pageScripts ca template issuedAfter pageSize i) ca template

lemma ServesContents.returns_fetchPage
    (h : ServesContents host rows cas templates issuedAfter pageSize) (hca : ca ∈ cas)
    (htemplate : template ∈ queries templates) (page : ℕ) (w : Wire) :
    Returns (fetchPage host issuedAfter pageSize ca template (page + 1)) w
      (Slice.page (rows w.sent ca template) pageSize.toNat page)
      (w.send [pageScript ca template issuedAfter pageSize page]) := by
  obtain ⟨result, text, hanswer, hstatus, hout, hrender⟩ := h ca hca template htemplate page w
  exact AdcsConnector.returns_fetchPage hanswer hstatus (parseCertificates_of_renders hrender hout)

/-- The loop from page `page + 1` on reads the pages after it as they are. -/
lemma ServesContents.of_whileFull
    (h : ServesContents host rows cas templates issuedAfter pageSize) (hs : 1 ≤ pageSize)
    (hca : ca ∈ cas) (htemplate : template ∈ queries templates) {page : ℕ} {w w' : Wire}
    {total l : List ParseResult}
    (hr : Returns (whileFull host issuedAfter pageSize ca template fuel (page + 1)
        (Slice.page (rowsAt rows w.sent ca template issuedAfter pageSize page) pageSize.toNat page)
        total) (w.send (pageScripts ca template issuedAfter pageSize (page + 1))) l w') :
    ∃ q rest,
      Slice.Reads (rowsAt rows w.sent ca template issuedAfter pageSize) pageSize.toNat page q
        (Slice.page (rowsAt rows w.sent ca template issuedAfter pageSize page)
          pageSize.toNat page ++ rest) ∧
      l = total ++ rest ∧ w' = w.send (pageScripts ca template issuedAfter pageSize (q + 1)) := by
  have hcast : ∀ n : ℕ, (n : ℤ) = pageSize ↔ n = pageSize.toNat := fun n => by omega
  induction fuel generalizing page total with
  | zero => exact absurd hr not_returns_outOfFuel
  | succ fuel ih =>
      rw [whileFull] at hr
      split_ifs at hr with hfull
      · rw [returns_bind] at hr
        obtain ⟨certificates, w₁, hfetch, hrest⟩ := hr
        obtain ⟨rfl, rfl⟩ := returns_unique hfetch (h.returns_fetchPage hca htemplate (page + 1) _)
        rw [Wire.send_send, ← pageScripts_succ] at hrest
        obtain ⟨q, rest, hreads, rfl, rfl⟩ := ih hrest
        exact ⟨q, _, .more ((hcast _).mp hfull) hreads, by simp [rowsAt, Wire.send], rfl⟩
      · obtain ⟨rfl, rfl⟩ := returns_pure.mp hr
        refine ⟨page, [], ?_, by simp, rfl⟩
        rw [List.append_nil]
        exact .last fun heq => hfull ((hcast _).mpr heq)

/-- A query reads its rows page by page, as they are when each page is asked for. -/
lemma ServesContents.of_collectQuery
    (h : ServesContents host rows cas templates issuedAfter pageSize) (hs : 1 ≤ pageSize)
    (hca : ca ∈ cas) (htemplate : template ∈ queries templates) {w w' : Wire}
    {total l : List ParseResult}
    (hr : Returns (collectQuery host issuedAfter pageSize fuel ca total template) w l w') :
    ∃ q rest, Slice.Reads (rowsAt rows w.sent ca template issuedAfter pageSize) pageSize.toNat 0 q
        rest ∧
      l = total ++ rest ∧ w' = w.send (pageScripts ca template issuedAfter pageSize (q + 1)) := by
  rw [collectQuery, returns_bind] at hr
  obtain ⟨certificates, w₁, hfetch, hrest⟩ := hr
  obtain ⟨rfl, rfl⟩ := returns_unique hfetch (h.returns_fetchPage hca htemplate 0 w)
  have hzero : rowsAt rows w.sent ca template issuedAfter pageSize 0 = rows w.sent ca template := by
    simp [rowsAt, pageScripts]
  rw [← hzero] at hrest
  obtain ⟨q, rest, hreads, rfl, rfl⟩ := h.of_whileFull hs hca htemplate hrest
  exact ⟨q, _, hreads, by rw [List.append_assoc, hzero], rfl⟩

/-- A query against bounded rows ends, each full page being one turn nearer to the
bound. -/
lemma ServesContents.exists_whileFull
    (h : ServesContents host rows cas templates issuedAfter pageSize) (hs : 1 ≤ pageSize)
    (hca : ca ∈ cas) (htemplate : template ∈ queries templates) {n page : ℕ}
    (hn : ∀ sent, (rows sent ca template).length < n) (hpos : 0 < fuel)
    (hfuel : n ≤ page * pageSize.toNat + fuel) {l : List ParseResult} (hl : l.length < n)
    (total : List ParseResult) (w : Wire) :
    ∃ total' w', Returns (whileFull host issuedAfter pageSize ca template fuel (page + 1)
      (Slice.page l pageSize.toNat page) total) w total' w' := by
  have hcast : ∀ n : ℕ, (n : ℤ) = pageSize ↔ n = pageSize.toNat := fun n => by omega
  induction fuel generalizing page l total w with
  | zero => omega
  | succ fuel ih =>
      rw [whileFull]
      split_ifs with hfull
      · have hlength := (Slice.page_length_eq_iff (by omega)).mp ((hcast _).mp hfull)
        have hnext : (page + 1) * pageSize.toNat = page * pageSize.toNat + pageSize.toNat := by
          rw [Nat.add_mul, Nat.one_mul]
        have hnext' : n ≤ (page + 1) * pageSize.toNat + fuel := by omega
        obtain ⟨total', w', hrest⟩ := ih (by omega) hnext' (hn w.sent)
          (total ++ Slice.page (rows w.sent ca template) pageSize.toNat (page + 1))
          (w.send [pageScript ca template issuedAfter pageSize (page + 1)])
        have hfetch := h.returns_fetchPage hca htemplate (page + 1) w
        exact ⟨total', w', returns_bind.mpr ⟨_, _, hfetch, hrest⟩⟩
      · exact ⟨total, w, returns_pure.mpr ⟨rfl, rfl⟩⟩

lemma ServesContents.exists_collectQuery
    (h : ServesContents host rows cas templates issuedAfter pageSize) (hs : 1 ≤ pageSize)
    (hca : ca ∈ cas) (htemplate : template ∈ queries templates)
    (hfuel : ∀ sent, (rows sent ca template).length < fuel) (total : List ParseResult) (w : Wire) :
    ∃ total' w', Returns (collectQuery host issuedAfter pageSize fuel ca total template) w
      total' w' := by
  obtain ⟨total', w', hrest⟩ := h.exists_whileFull hs hca htemplate hfuel
    (Nat.zero_lt_of_lt (hfuel w.sent)) (show fuel ≤ 0 * pageSize.toNat + fuel by omega)
    (hfuel w.sent) _ _
  rw [collectQuery]
  exact ⟨total', w', returns_bind.mpr ⟨_, _, h.returns_fetchPage hca htemplate 0 w, hrest⟩⟩

end Query

/-! ### All queries -/

/-- The queries of a collection, in order. -/
def asked (cas : List AuthorityData) (templates : List TemplateData) :
    List (AuthorityData × Option TemplateData) :=
  cas.flatMap fun ca => (queries templates).map fun template => (ca, template)

lemma mem_asked {cas : List AuthorityData} {templates : List TemplateData}
    {q : AuthorityData × Option TemplateData} :
    q ∈ asked cas templates ↔ q.1 ∈ cas ∧ q.2 ∈ queries templates := by
  simp only [asked, List.mem_flatMap, List.mem_map]
  constructor
  · rintro ⟨ca, hca, template, htemplate, rfl⟩
    exact ⟨hca, htemplate⟩
  · rintro ⟨hca, htemplate⟩
    exact ⟨q.1, hca, q.2, htemplate, rfl⟩

lemma allRows_eq (rows : AuthorityData → Option TemplateData → List ParseResult)
    (cas : List AuthorityData) (templates : List TemplateData) :
    allRows rows cas templates = (asked cas templates).flatMap fun q => rows q.1 q.2 := by
  simp only [allRows, asked, List.flatMap_assoc, List.flatMap_map]

/-- The two loops are one over the queries. -/
lemma collectCas_eq (host : Host) (templates : List TemplateData) (issuedAfter : Option String)
    (pageSize : ℤ) (fuel : ℕ) (cas : List AuthorityData) :
    collectCas host templates issuedAfter pageSize fuel cas =
      (asked cas templates).foldlM
        (fun total q => collectQuery host issuedAfter pageSize fuel q.1 total q.2) [] := by
  rw [collectCas]
  generalize ([] : List ParseResult) = total
  induction cas generalizing total with
  | nil => rfl
  | cons ca cas ih =>
      rw [asked, List.flatMap_cons, ← asked, List.foldlM_append, List.foldlM_map, List.foldlM_cons,
        collectCa]
      exact bind_congr ih

/-- Parts that are related to the rows of their queries are so together. -/
lemma related_flatten {R : List ParseResult → List ParseResult → Prop} (hnil : R [] [])
    (happend : ∀ a b c d, R a b → R c d → R (a ++ c) (b ++ d))
    {rows : AuthorityData → Option TemplateData → List ParseResult}
    {l : List (AuthorityData × Option TemplateData)} {parts : List (List ParseResult)}
    (h : List.Forall₂ (fun q part => R (rows q.1 q.2) part) l parts) :
    R (l.flatMap fun q => rows q.1 q.2) parts.flatten := by
  induction h with
  | nil => exact hnil
  | cons hpart _ ih => exact happend _ _ _ _ hpart ih

section Collection

variable {host : Host} {rows : Contents} {cas : List AuthorityData}
  {templates : List TemplateData} {issuedAfter : Option String} {pageSize : ℤ} {fuel : ℕ}

/-- What the query `q` reads between two states of the wire. -/
def ReadBetween (rows : Contents) (issuedAfter : Option String) (pageSize : ℤ) (w : Wire)
    (q : AuthorityData × Option TemplateData) (part : List ParseResult) (w' : Wire) : Prop :=
  ∃ p, Slice.Reads (rowsAt rows w.sent q.1 q.2 issuedAfter pageSize) pageSize.toNat 0 p part ∧
    w' = w.send (pageScripts q.1 q.2 issuedAfter pageSize (p + 1))

/-- The loops read every query, one after the other. -/
lemma ServesContents.of_collectCas
    (h : ServesContents host rows cas templates issuedAfter pageSize) (hs : 1 ≤ pageSize)
    {w w' : Wire} {total : List ParseResult}
    (hr : Returns (collectCas host templates issuedAfter pageSize fuel cas) w total w') :
    w.sent <+: w'.sent ∧ ∃ parts : List (List ParseResult), total = parts.flatten ∧
      List.Forall₂ (fun q part => ∃ v v', w.sent <+: v.sent ∧ v'.sent <+: w'.sent ∧
        ReadBetween rows issuedAfter pageSize v q part v') (asked cas templates) parts := by
  rw [collectCas_eq] at hr
  have hrefl : ∀ s : Wire, (InvImage (· <+: ·) Wire.sent) s s := fun _ => List.prefix_rfl
  refine exists_parts_of_foldlM hrefl (fun _ _ _ => List.IsPrefix.trans)
    (fun q hq total v r v' hquery => ?_) hr
  obtain ⟨hca, htemplate⟩ := mem_asked.mp hq
  obtain ⟨p, part, hreads, rfl, rfl⟩ := h.of_collectQuery hs hca htemplate hquery
  exact ⟨part, rfl, ⟨p, hreads, rfl⟩, List.prefix_append _ _⟩

lemma ServesContents.exists_collectCas
    (h : ServesContents host rows cas templates issuedAfter pageSize) (hs : 1 ≤ pageSize)
    (hfuel : ∀ sent, (allRows (rows sent) cas templates).length < fuel) (w : Wire) :
    ∃ total w', Returns (collectCas host templates issuedAfter pageSize fuel cas) w total w' := by
  rw [collectCas_eq]
  refine exists_returns_foldlM_of_forall (fun q hq total w => ?_) [] w
  obtain ⟨hca, htemplate⟩ := mem_asked.mp hq
  exact h.exists_collectQuery hs hca htemplate
    (fun sent => (length_le_allRows (rows sent) hca htemplate).trans_lt (hfuel sent)) total w

variable {w v v' w' : Wire} {q : AuthorityData × Option TemplateData} {part : List ParseResult}

lemma ReadBetween.sublist_of_gains (hrows : rows.Gains)
    (h : ReadBetween rows issuedAfter pageSize v q part v') (hle : w.sent <+: v.sent) :
    (rows w.sent q.1 q.2).Sublist part := by
  obtain ⟨p, hreads, -⟩ := h
  have hread := hreads.lossless fun i =>
    hrows _ _ q.1 q.2 ((List.prefix_append_right_inj v.sent).mpr (pageScripts_mono i.le_succ))
  rw [Nat.zero_mul, List.drop_zero] at hread
  exact (hrows _ _ q.1 q.2 (hle.trans (List.prefix_append ..))).trans hread

lemma ReadBetween.subset_of_gains (hrows : rows.Gains)
    (h : ReadBetween rows issuedAfter pageSize v q part v') (hle : v'.sent <+: w'.sent) :
    part ⊆ rows w'.sent q.1 q.2 := by
  obtain ⟨p, hreads, rfl⟩ := h
  intro row hrow
  obtain ⟨i, hi, hmem⟩ := hreads.exists_mem hrow
  have hprefix : v.sent ++ pageScripts q.1 q.2 issuedAfter pageSize i <+: w'.sent :=
    ((List.prefix_append_right_inj v.sent).mpr (pageScripts_mono (by omega))).trans hle
  exact (hrows _ _ q.1 q.2 hprefix).subset hmem

lemma ReadBetween.sublist_of_loses (hrows : rows.Loses)
    (h : ReadBetween rows issuedAfter pageSize v q part v') (hle : w.sent <+: v.sent) :
    part.Sublist (rows w.sent q.1 q.2) := by
  obtain ⟨p, hreads, -⟩ := h
  have hread := hreads.sublist fun i =>
    hrows _ _ q.1 q.2 ((List.prefix_append_right_inj v.sent).mpr (pageScripts_mono i.le_succ))
  rw [Nat.zero_mul, List.drop_zero] at hread
  exact hread.trans (hrows _ _ q.1 q.2 (hle.trans (List.prefix_append ..)))

/-- A query is a snapshot of its rows, as they are when its last page is asked for. -/
lemma ReadBetween.eq_of_appends (hrows : rows.Appends)
    (h : ReadBetween rows issuedAfter pageSize v q part v') (hw : w.sent <+: v.sent)
    (hw' : v'.sent <+: w'.sent) :
    ∃ sent, w.sent <+: sent ∧ sent <+: w'.sent ∧ part = rows sent q.1 q.2 := by
  obtain ⟨p, hreads, rfl⟩ := h
  have hread := hreads.snapshot fun i =>
    hrows _ _ q.1 q.2 ((List.prefix_append_right_inj v.sent).mpr (pageScripts_mono i.le_succ))
  rw [Nat.zero_mul, List.drop_zero] at hread
  exact ⟨_, hw.trans (List.prefix_append ..), ((List.prefix_append_right_inj v.sent).mpr
    (pageScripts_mono p.le_succ)).trans hw', hread⟩

end Collection

/-! ### The collection as a whole -/

section Whole

variable {env : Environment} {attributes : List Attribute} {cas : List AuthorityData}
  {rows : Contents} {fuel : ℕ}

/-- A collection that returns has run its loops between opening and closing the shell. -/
lemma Selection.Available.of_returns_inSession {sel : Selection env attributes}
    (h : sel.Available cas) {α : Type} {a : α} {cas' : List AuthorityData} {w w' : Wire}
    {loops : Host → List TemplateData → Option String → List AuthorityData → Session α}
    (hr : Returns (inSession env attributes loops) w (cas', a) w') :
    cas' = cas ∧ ∃ v v', Returns (loops sel.host sel.templates sel.issuedAfter cas) v a v' ∧
      w.sent <+: v.sent ∧ v'.sent = w'.sent := by
  rw [sel.inSession_eq] at hr
  simp only [returns_bind, returns_pure] at hr
  obtain ⟨_, w₁, hconnect, cas₁, v, hlist, a₁, v', hloops, _, w₂, hdisconnect, heq, rfl⟩ := hr
  obtain ⟨rfl, rfl⟩ := Prod.mk.inj heq
  obtain ⟨rfl, rfl⟩ := returns_unique hlist (h.returns_listCas w₁)
  rw [Returns, connect, h.openShell] at hconnect
  rw [Returns, disconnect, h.closeShell] at hdisconnect
  obtain rfl := (Prod.mk.inj (Option.some.inj hconnect)).2
  obtain rfl := (Prod.mk.inj (Option.some.inj hdisconnect)).2
  exact ⟨rfl, _, v', hloops, List.prefix_append .., rfl⟩

lemma Selection.Available.exists_inSession {sel : Selection env attributes}
    (h : sel.Available cas) {α : Type}
    {loops : Host → List TemplateData → Option String → List AuthorityData → Session α}
    (hloops : ∀ v, ∃ a v', Returns (loops sel.host sel.templates sel.issuedAfter cas) v a v')
    (w : Wire) : ∃ a w', Returns (inSession env attributes loops) w (cas, a) w' := by
  have hconnect : Returns (connect sel.host) w () { w with openShells := w.openShells + 1 } := by
    rw [Returns, connect, h.openShell]
  obtain ⟨a, v', hreturn⟩ := hloops
    ((⟨w.sent, w.openShells + 1⟩ : Wire).send sel.listScripts)
  have hdisconnect : Returns (disconnect sel.host) v' ()
      { v' with openShells := v'.openShells - 1 } := by
    rw [Returns, disconnect, h.closeShell]
  rw [sel.inSession_eq]
  simp only [returns_bind, returns_pure]
  exact ⟨a, _, (), _, hconnect, cas, _, h.returns_listCas _, a, v', hreturn, (), _, hdisconnect,
    rfl, rfl⟩

/-- **A collection of a database that changes.** The host answers every page from the
rows as they are when it is asked for, and what the rows are may depend on all that has
been asked before. With any page size of at least one:

* while the rows stay below the fuel the collection returns;
* while rows are only added, anywhere, it returns all rows that were there when it
  began, and none that is not there when it ends;
* while rows are only removed, it returns no row more often than it was there when it
  began;
* while rows are only appended, what it returns for each query is all of the query's
  rows as they were at one moment of the collection. -/
theorem collectCertificates_changing (sel : Selection env attributes)
    (havailable : sel.Available cas)
    (hserves : ServesContents sel.host rows cas sel.templates sel.issuedAfter env.searchPageSize)
    (hs : 1 ≤ env.searchPageSize) (w : Wire) :
    ((∀ sent, (allRows (rows sent) cas sel.templates).length < fuel) →
        ∃ total w', Returns (collectCertificates env fuel attributes) w (cas, total) w') ∧
      ∀ cas' total w', Returns (collectCertificates env fuel attributes) w (cas', total) w' →
        (rows.Gains → (allRows (rows w.sent) cas sel.templates).Sublist total ∧
          total ⊆ allRows (rows w'.sent) cas sel.templates) ∧
        (rows.Loses → total.Sublist (allRows (rows w.sent) cas sel.templates)) ∧
        (rows.Appends → ∃ snapshots : List (List ParseResult), total = snapshots.flatten ∧
          List.Forall₂ (fun q snapshot => ∃ sent, w.sent <+: sent ∧ sent <+: w'.sent ∧
            snapshot = rows sent q.1 q.2) (asked cas sel.templates) snapshots) := by
  refine ⟨fun hfuel => havailable.exists_inSession (hserves.exists_collectCas hs hfuel) w,
    fun cas' total w' hr => ?_⟩
  obtain ⟨-, v, v', hloops, hv, hv'⟩ := havailable.of_returns_inSession hr
  obtain ⟨-, parts, rfl, hparts⟩ := hserves.of_collectCas hs hloops
  rw [hv'] at hparts
  refine ⟨fun hrows => ⟨?_, ?_⟩, fun hrows => ?_, fun hrows => ⟨parts, rfl, ?_⟩⟩
  · rw [allRows_eq]
    refine related_flatten .slnil (fun _ _ _ _ => List.Sublist.append) ?_
    exact hparts.imp fun q part ⟨u, u', hu, _, hread⟩ =>
      hread.sublist_of_gains hrows (hv.trans hu)
  · rw [allRows_eq]
    refine related_flatten (R := fun a b => b ⊆ a) (List.nil_subset _)
      (fun _ _ _ _ hab hcd => List.append_subset.mpr
        ⟨List.subset_append_of_subset_left _ hab, List.subset_append_of_subset_right _ hcd⟩) ?_
    exact hparts.imp fun q part ⟨u, u', _, hu', hread⟩ => hread.subset_of_gains hrows hu'
  · rw [allRows_eq]
    refine related_flatten (R := fun a b => b.Sublist a) .slnil
      (fun _ _ _ _ => List.Sublist.append) ?_
    exact hparts.imp fun q part ⟨u, u', hu, _, hread⟩ =>
      hread.sublist_of_loses hrows (hv.trans hu)
  · exact hparts.imp fun q part ⟨u, u', hu, hu', hread⟩ =>
      hread.eq_of_appends hrows (hv.trans hu) hu'

end Whole

/-! ### A sample database -/

/-- The second row is added once a page has been asked for. -/
def growingRows : Contents := fun sent _ _ => if sent = [] then sampleRows.take 1 else sampleRows

lemma growingRows_appends : growingRows.Appends := by
  intro sent sent' ca template hprefix
  rw [growingRows, growingRows]
  by_cases hsent : sent = []
  · rw [if_pos hsent]
    split_ifs
    · exact List.prefix_rfl
    · exact List.take_prefix _ _
  · have hsent' : sent' ≠ [] := fun heq => hsent (List.prefix_nil.mp (heq ▸ hprefix))
    rw [if_neg hsent, if_neg hsent']

/-- A host that prints the pages of the growing rows. -/
def growingHost : Host where
  debug := false
  openShell _ := .ok ()
  powershell w script :=
    .ok (printed (if w.sent = [] ∧ script ≠ pageScript subCa none none 1 0 then []
      else samplePage script))
  closeShell _ := .ok ()

lemma growingHost_serves : ServesContents growingHost growingRows [subCa] [] none 1 := by
  intro ca hca template htemplate page w
  obtain rfl := List.mem_singleton.mp hca
  obtain rfl := List.mem_singleton.mp htemplate
  have hpage : (if w.sent = [] ∧ pageScript subCa none none 1 page ≠ pageScript subCa none none 1 0
      then [] else samplePage (pageScript subCa none none 1 page)) =
      Slice.page (growingRows w.sent subCa none) 1 page := by
    rw [pageScript, samplePage_script, growingRows]
    split_ifs with hempty hsent hsent
    · have hpos : page ≠ 0 := fun hzero => hempty.2 (by rw [hzero, pageScript])
      refine ((Slice.page_eq_nil_iff le_rfl).mpr ?_).symm
      rw [List.length_take]
      omega
    · exact absurd hempty.1 hsent
    · obtain rfl : page = 0 := by
        by_contra hpos
        refine hempty ⟨hsent, fun heq => hpos ?_⟩
        have hnumber := baseCommand_page (dumpCertificatesScript_baseCommand heq)
        omega
      rfl
    · rfl
  refine ⟨printed (Slice.page (growingRows w.sent subCa none) 1 page), _, ?_, rfl, rfl, ?_⟩
  · exact congrArg (fun rows => Except.ok (printed rows)) hpage
  refine renders_formatList fun row hrow => sampleRows_printable ?_
  rw [Int.toNat_one, Slice.page_eq, growingRows] at hrow
  have hmem := List.mem_of_mem_drop (List.mem_of_mem_take hrow)
  split_ifs at hmem
  · exact List.mem_of_mem_take hmem
  · exact hmem

def growingEnvironment : Environment where
  AuthorityInstance := Unit
  authorityInstance _ := .ok ()
  session _ := .ok growingHost
  eval _ _ := .error .syntaxError
  searchPageSize := 1

/-- A request for the sub CA and all templates. -/
def growingRequest : List Attribute :=
  [⟨"discovery_authority_instance", [.authorityInstance "Lab" "7"]⟩,
    ⟨"discovery_select_ca_method", [.str "search"]⟩,
    ⟨"discovery_ca_name", [.authority subCa]⟩]

def growingSelection : Selection growingEnvironment growingRequest where
  uuid := "7"
  authority := ()
  cas := [subCa]
  templates := []
  host := growingHost
  uuid_eq := rfl
  authority_eq := rfl
  cas_eq := rfl
  templates_eq := rfl
  isDate := trivial
  host_eq := rfl

lemma growingSelection_available : growingSelection.Available [subCa] where
  openShell _ := rfl
  closeShell _ := rfl
  selected _ := rfl
  listed h := by cases h

/-- The collection returns the rows as they were before or after the second one was
added. -/
theorem collectCertificates_changing_sample : ∃ total w',
    Returns (collectCertificates growingEnvironment 3 growingRequest) ⟨[], 0⟩ ([subCa], total) w' ∧
      (total = sampleRows.take 1 ∨ total = sampleRows) := by
  obtain ⟨hreturns, hof⟩ := @collectCertificates_changing _ _ _ _ 3 growingSelection
    growingSelection_available growingHost_serves le_rfl ⟨[], 0⟩
  have hbound : ∀ sent,
      (allRows (growingRows sent) [subCa] growingSelection.templates).length < 3 := by
    intro sent
    by_cases hsent : sent = []
    · subst hsent
      decide
    · have hrows : growingRows sent = fun _ _ => sampleRows := by
        funext _ _
        rw [growingRows, if_neg hsent]
      rw [hrows]
      decide
  obtain ⟨total, w', hr⟩ := hreturns hbound
  obtain ⟨snapshots, rfl, hall⟩ := (hof _ _ _ hr).2.2 growingRows_appends
  refine ⟨_, w', hr, ?_⟩
  obtain ⟨snapshot, rest, ⟨sent, -, -, rfl⟩, hrest, rfl⟩ := List.forall₂_cons_left_iff.mp hall
  cases hrest
  rw [List.flatten_singleton, growingRows]
  split_ifs
  · exact .inl rfl
  · exact .inr rfl

end AdcsConnector
