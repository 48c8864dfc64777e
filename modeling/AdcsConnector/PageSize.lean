/-
The paging loops of `discover_certificates` and `ADCS_SEARCH_PAGE_SIZE`, which
may be any integer.

* `AnswersPages`: a host that answers every page with at most as many rows as
  asked for, and with none past the end of its database;
* `whileFull_ne_none`, `whileFull_zero`: the loop ends for every other size, and
  never for pages of no rows, which are always full;
* `paging_ends_iff`: the collection ends exactly when the size is not zero, or no
  authority is asked.
-/
import AdcsConnector.Collection

namespace AdcsConnector

open Program

variable {host : Host} {cas : List AuthorityData} {templates : List TemplateData}
  {issuedAfter : Option String} {pageSize : ℤ} {last fuel page : ℕ} {ca : AuthorityData}
  {template : Option TemplateData} {certificates total : List ParseResult} {w : Wire}

/-- The host answers every page, with no more rows than asked for, and with none
after its last page; the database may change in between. -/
def AnswersPages (host : Host) (cas : List AuthorityData) (templates : List TemplateData)
    (issuedAfter : Option String) (pageSize : ℤ) (last : ℕ) : Prop :=
  ∀ ca ∈ cas, ∀ template ∈ queries templates, ∀ page w, ∃ result rows,
    host.powershell w (dumpCertificatesScript ca template issuedAfter (page + 1) pageSize) =
        .ok result ∧
      result.statusCode = 0 ∧ parseCertificates result = .ok rows ∧
      (rows.length : ℤ) ≤ max pageSize 0 ∧ (last ≤ page → rows = [])

/-- The collection ends, with a result or an exception, after finitely many
scripts. -/
def PagingEnds (host : Host) (templates : List TemplateData) (issuedAfter : Option String)
    (pageSize : ℤ) (cas : List AuthorityData) (w : Wire) : Prop :=
  ∃ fuel outcome w',
    collectCas host templates issuedAfter pageSize fuel cas w = some (outcome, w')

/-- A page is fetched, with the rows that the host answers. -/
lemma AnswersPages.exists_fetchPage (h : AnswersPages host cas templates issuedAfter pageSize last)
    (hca : ca ∈ cas) (htemplate : template ∈ queries templates) (page : ℕ) (w : Wire) :
    ∃ rows w', Returns (fetchPage host issuedAfter pageSize ca template (page + 1)) w rows w' ∧
      (rows.length : ℤ) ≤ max pageSize 0 ∧ (last ≤ page → rows = []) := by
  obtain ⟨result, rows, hanswer, hstatus, hparse, hlength, hlast⟩ :=
    h ca hca template htemplate page w
  exact ⟨rows, _, returns_fetchPage hanswer hstatus hparse, hlength, hlast⟩

/-- The loop ends unless the size is zero: a further turn needs a page with
rows. -/
lemma AnswersPages.whileFull_ne_none
    (h : AnswersPages host cas templates issuedAfter pageSize last) (hsize : pageSize ≠ 0)
    (hca : ca ∈ cas) (htemplate : template ∈ queries templates)
    (hpage : certificates ≠ [] → page < last) (hfuel : last ≤ page + fuel) :
    whileFull host issuedAfter pageSize ca template (fuel + 1) (page + 1) certificates total w ≠
      none := by
  induction fuel generalizing page certificates total w with
  | zero =>
      have hempty : certificates = [] := by
        by_contra hne
        have := hpage hne
        omega
      rw [whileFull, if_neg (by rw [hempty]; exact fun heq => hsize heq.symm)]
      exact Option.some_ne_none _
  | succ fuel ih =>
      rw [whileFull]
      split_ifs with hfull
      · obtain ⟨rows, w', hfetch, -, hlast⟩ := h.exists_fetchPage hca htemplate (page + 1) w
        rw [hfetch.run_bind]
        refine ih (fun hne => ?_) (by omega)
        by_contra hle
        exact hne (hlast (by omega))
      · exact Option.some_ne_none _

/-- A query ends unless the size is zero. -/
lemma AnswersPages.collectQuery_ne_none
    (h : AnswersPages host cas templates issuedAfter pageSize last) (hsize : pageSize ≠ 0)
    (hca : ca ∈ cas) (htemplate : template ∈ queries templates) :
    collectQuery host issuedAfter pageSize (last + 1) ca total template w ≠ none := by
  obtain ⟨rows, w', hfetch, -, hlast⟩ := h.exists_fetchPage hca htemplate 0 w
  rw [collectQuery, hfetch.run_bind]
  refine h.whileFull_ne_none hsize hca htemplate (fun hne => ?_) (Nat.le_add_left ..)
  by_contra hle
  exact hne (hlast (by omega))

/-- A page of no rows is full when the size is zero, and the next one is
requested. -/
lemma AnswersPages.whileFull_zero (h : AnswersPages host cas templates issuedAfter 0 last)
    (hca : ca ∈ cas) (htemplate : template ∈ queries templates) :
    whileFull host issuedAfter 0 ca template fuel (page + 1) [] total w = none := by
  induction fuel generalizing page total w with
  | zero => rfl
  | succ fuel ih =>
      obtain ⟨rows, w', hfetch, hlength, -⟩ := h.exists_fetchPage hca htemplate (page + 1) w
      have hempty : rows = [] := by
        rw [max_self] at hlength
        exact List.length_eq_zero_iff.mp (by omega)
      rw [whileFull, if_pos (by rfl), hfetch.run_bind, hempty]
      exact ih

/-- A query does not end when the size is zero. -/
lemma AnswersPages.collectQuery_zero (h : AnswersPages host cas templates issuedAfter 0 last)
    (hca : ca ∈ cas) (htemplate : template ∈ queries templates) :
    collectQuery host issuedAfter 0 fuel ca total template w = none := by
  obtain ⟨rows, w', hfetch, hlength, -⟩ := h.exists_fetchPage hca htemplate 0 w
  have hempty : rows = [] := by
    rw [max_self] at hlength
    exact List.length_eq_zero_iff.mp (by omega)
  rw [collectQuery, hfetch.run_bind, hempty]
  exact h.whileFull_zero hca htemplate

/-- There is a query for every authority. -/
lemma exists_cons_queries (templates : List TemplateData) :
    ∃ template rest, queries templates = template :: rest := by
  cases templates with
  | nil => exact ⟨none, [], rfl⟩
  | cons template rest => exact ⟨some template, rest.map some, by simp [queries]⟩

/-- **The paging loops end** exactly when the page size is not zero, or no
authority is asked. -/
theorem paging_ends_iff (h : AnswersPages host cas templates issuedAfter pageSize last) (w : Wire) :
    PagingEnds host templates issuedAfter pageSize cas w ↔ pageSize ≠ 0 ∨ cas = [] := by
  constructor
  · rintro ⟨fuel, outcome, w', hrun⟩
    by_contra hnot
    obtain ⟨hzero, hcas⟩ := not_or.mp hnot
    obtain rfl := not_not.mp hzero
    obtain ⟨ca, rest, rfl⟩ := List.exists_cons_of_ne_nil hcas
    obtain ⟨template, others, hqueries⟩ := exists_cons_queries templates
    have hfirst : collectCa host templates issuedAfter 0 fuel [] ca w = none := by
      rw [collectCa, hqueries, List.foldlM_cons]
      exact bind_eq_none (h.collectQuery_zero List.mem_cons_self
        (by rw [hqueries]; exact List.mem_cons_self)) _
    rw [collectCas, List.foldlM_cons, bind_eq_none hfirst] at hrun
    cases hrun
  · rintro (hsize | rfl)
    · have hends : collectCas host templates issuedAfter pageSize (last + 1) cas w ≠ none :=
        foldlM_ne_none (fun ca hca total w => foldlM_ne_none
          (fun template htemplate total w => h.collectQuery_ne_none hsize hca htemplate) total w)
            [] w
      obtain ⟨⟨outcome, w'⟩, hrun⟩ := Option.ne_none_iff_exists'.mp hends
      exact ⟨last + 1, outcome, w', hrun⟩
    · exact ⟨0, .ok [], w, rfl⟩

/-! ### Hosts with a database -/

/-- A host that serves the pages of a database answers none past its rows. -/
lemma Serves.answersPages {rows : AuthorityData → Option TemplateData → List ParseResult}
    (h : Serves host rows cas templates issuedAfter pageSize) :
    AnswersPages host cas templates issuedAfter pageSize (allRows rows cas templates).length := by
  intro ca hca template htemplate page w
  obtain ⟨result, text, hanswer, hstatus, hout, hrenders⟩ := h ca hca template htemplate page w
  refine ⟨result, _, hanswer, hstatus, parseCertificates_of_renders hrenders hout, ?_, ?_⟩
  · rw [← Int.ofNat_toNat, Slice.page_length]
    omega
  · intro hpage
    have hle := length_le_allRows rows hca htemplate
    rw [← List.length_eq_zero_iff, Slice.page_length]
    rcases Nat.eq_zero_or_pos pageSize.toNat with hzero | hpos
    · omega
    · have hmul : page ≤ page * pageSize.toNat := Nat.le_mul_of_pos_right page hpos
      omega

/-- Pages of one over the sample rows. -/
theorem paging_ends_sample :
    PagingEnds (printingHost samplePage) [] none 1 [subCa] ⟨[], 1⟩ :=
  (paging_ends_iff sample_serves.answersPages ⟨[], 1⟩).mpr (.inl one_ne_zero)

/-- A host without rows. -/
lemma empty_serves : Serves (printingHost fun _ => []) (fun _ _ => []) [subCa] [] none 0 := by
  intro ca _ template _ page w
  exact ⟨printed [], _, rfl, rfl, rfl, renders_formatList (List.forall_mem_nil _)⟩

/-- Pages of no rows are requested without end. -/
theorem page_size_zero_never_ends :
    ¬ ∀ (host : Host) (cas : List AuthorityData) (templates : List TemplateData)
      (issuedAfter : Option String) (pageSize : ℤ) (last : ℕ) (w : Wire),
      AnswersPages host cas templates issuedAfter pageSize last →
      PagingEnds host templates issuedAfter pageSize cas w := by
  intro h
  obtain ⟨fuel, outcome, w', hrun⟩ := h _ [subCa] [] none 0 _ ⟨[], 1⟩ empty_serves.answersPages
  have hquery : collectQuery (printingHost fun _ => []) none 0 fuel subCa [] none ⟨[], 1⟩ = none :=
    empty_serves.answersPages.collectQuery_zero List.mem_cons_self List.mem_cons_self
  rw [collectCas, List.foldlM_cons, collectCa, queries, if_pos rfl, List.foldlM_cons,
    bind_eq_none (bind_eq_none hquery _)] at hrun
  cases hrun

end AdcsConnector
