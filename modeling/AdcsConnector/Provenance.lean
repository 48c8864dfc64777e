/-
Where the links of a discovery come from: the collection with each certificate
paired with the authority whose dump returned it.

* `collectOrigins`: the collection that keeps the authority of each
  certificate; `collectCertificates_isImage`: forgetting the authorities gives
  the collection of the code;
* `Attributed`: the metadata of a link name the authority and the template of
  its certificate;
* `attributed_iff`: the links are attributed exactly when every authority whose
  dump returned a certificate has the name of the first authority, which
  `getCertificateMeta` writes into every link.
-/
import AdcsConnector.Collection

namespace AdcsConnector

open Program

/-! ### Certificates with their authorities -/

section Loops

variable (host : Host) (templates : List TemplateData) (issuedAfter : Option String)
  (pageSize : ℤ) (fuel : ℕ)

/-- The loop over the authorities, each certificate kept with its authority. -/
def collectCasOrigins (cas : List AuthorityData) :
    Session (List (AuthorityData × ParseResult)) :=
  cas.foldlM (fun origins ca => do
    let certificates ← collectCa host templates issuedAfter pageSize fuel [] ca
    return origins ++ certificates.map fun cert => (ca, cert)) []

end Loops

/-- The collection of a discovery, each certificate kept with its authority. -/
def collectOrigins (env : Environment) (fuel : ℕ) (attributes : List Attribute) :
    Session (List AuthorityData × List (AuthorityData × ParseResult)) :=
  inSession env attributes fun host templates issuedAfter =>
    collectCasOrigins host templates issuedAfter env.searchPageSize fuel

variable {host : Host} {templates : List TemplateData} {issuedAfter : Option String}
  {pageSize : ℤ} {fuel : ℕ} {env : Environment} {attributes : List Attribute} {w w' : Wire}

lemma whileFull_accumulates (ca : AuthorityData) (template : Option TemplateData) (page : ℕ)
    (certificates : List ParseResult) :
    Accumulates (whileFull host issuedAfter pageSize ca template fuel page certificates) := by
  intro pre total
  induction fuel generalizing page certificates total with
  | zero =>
      intro s a t
      simp [whileFull]
  | succ fuel ih =>
      rw [whileFull, whileFull]
      split_ifs with hfull
      · refine IsImage.bind_right _ fun certificates => ?_
        rw [List.append_assoc]
        exact ih (page + 1) certificates (total ++ certificates)
      · exact isImage_pure (pre ++ ·) total

/-- The dump of an authority is appended to the certificates collected so far. -/
lemma collectCa_accumulates (ca : AuthorityData) :
    Accumulates fun total => collectCa host templates issuedAfter pageSize fuel total ca := by
  refine Accumulates.foldlM fun template _ pre total => ?_
  refine IsImage.bind_right _ fun certificates => ?_
  rw [List.append_assoc]
  exact whileFull_accumulates ca template 1 certificates pre (total ++ certificates)

/-- Forgetting the authorities gives the loop of the code. -/
lemma collectCas_isImage (cas : List AuthorityData) :
    IsImage (List.map Prod.snd) (collectCas host templates issuedAfter pageSize fuel cas)
      (collectCasOrigins host templates issuedAfter pageSize fuel cas) := by
  refine IsImage.foldlM (fun ca _ origins s total t => ?_)
    ([] : List (AuthorityData × ParseResult))
  have hacc : Accumulates fun total =>
      collectCa host templates issuedAfter pageSize fuel total ca := collectCa_accumulates ca
  have hdump := hacc (origins.map Prod.snd) [] s total t
  simp only [List.append_nil] at hdump
  rw [hdump]
  simp only [returns_bind, returns_pure]
  constructor
  · rintro ⟨certificates, hret, rfl⟩
    exact ⟨_, ⟨certificates, t, hret, rfl, rfl⟩, by simp [Function.comp_def]⟩
  · rintro ⟨_, ⟨certificates, t, hret, rfl, rfl⟩, rfl⟩
    exact ⟨certificates, hret, by simp [Function.comp_def]⟩

/-- What surrounds the loops is the same for both. -/
lemma inSession_isImage {α β : Type} {φ : β → α}
    {loops : Host → List TemplateData → Option String → List AuthorityData → Session α}
    {loops' : Host → List TemplateData → Option String → List AuthorityData → Session β}
    (h : ∀ host templates issuedAfter cas,
      IsImage φ (loops host templates issuedAfter cas) (loops' host templates issuedAfter cas)) :
    IsImage (Prod.map id φ) (inSession env attributes loops) (inSession env attributes loops') := by
  refine IsImage.bind_right _ fun uuid => IsImage.bind_right _ fun authority =>
    IsImage.bind_right _ fun cas => IsImage.bind_right _ fun templates =>
    IsImage.bind_right _ fun host => IsImage.bind_right _ fun _ =>
    IsImage.bind_right _ fun cas => (h host templates _ cas).bind fun b =>
    IsImage.bind_right _ fun _ => isImage_pure (Prod.map id φ) (cas, b)

/-- Forgetting the authorities gives the collection of the code. -/
theorem collectCertificates_isImage :
    IsImage (Prod.map id (List.map Prod.snd)) (collectCertificates env fuel attributes)
      (collectOrigins env fuel attributes) :=
  inSession_isImage fun _ _ _ cas => collectCas_isImage cas

/-! ### Attribution -/

/-- The metadata of a link name the authority whose dump returned its
certificate, and the template of the certificate's own record. -/
def Attributed (x : AuthorityData × ParseResult) (link : DiscoveryCertificate) : Prop :=
  metadataValue "metadata_ca_name" (link.metadata.getD []) = some x.1.name ∧
    metadataValue "metadata_template_name" (link.metadata.getD []) = some x.2.template

variable {d first : ℕ} {cas : List AuthorityData} {ids : List (String × ℕ)} {uuids : List UUID}
  {total : List ParseResult} {origins : List (AuthorityData × ParseResult)}
  {links : List DiscoveryCertificate}

/-- A link names the first authority, and the template of its certificate. -/
lemma LinkFor.attributed {x : AuthorityData × ParseResult} {link : DiscoveryCertificate}
    (h : LinkFor d cas ids x.2 link) :
    Attributed x link ↔ ∀ ca ∈ cas.head?, x.1.name = ca.name := by
  obtain ⟨metadata, hmeta, hlink⟩ := h.metadata_eq
  cases cas with
  | nil => cases hmeta
  | cons ca cas =>
      obtain rfl := Except.ok.inj hmeta
      have hca : metadataValue "metadata_ca_name" (link.metadata.getD []) = some ca.name := by
        rw [hlink]
        rfl
      have htemplate : metadataValue "metadata_template_name" (link.metadata.getD []) =
          some x.2.template := by
        rw [hlink]
        rfl
      rw [Attributed, hca, htemplate]
      simp [eq_comm]

/-- The links written for certificates of known origin. -/
lemma forall₂_attributed_iff
    (hlinks : discoveryCertificates d cas ids first uuids (origins.map Prod.snd) = .ok links) :
    List.Forall₂ Attributed origins links ↔
      ∀ x ∈ origins, ∀ ca ∈ cas.head?, x.1.name = ca.name := by
  have hall := List.forall₂_map_left_iff.mp (discoveryCertificates_forall₂ hlinks)
  exact Rows.forall₂_iff_of_left hall fun _ _ h => h.attributed

/-! ### Two authorities -/

def rootCa : AuthorityData :=
  ⟨"Root CA", "Root CA", "root.example.local", "root.example.local\\Root CA", "Enterprise Root CA",
    .bool true, .bool true, .bool true, .str "Running"⟩

/-- A request that selects both authorities. -/
def sampleAttributes : List Attribute := [
  ⟨"discovery_authority_instance", [.authorityInstance "adcs" "f1b49091"]⟩,
  ⟨"discovery_select_ca_method", [.str "search"]⟩,
  ⟨"discovery_ca_name", [.authority rootCa, .authority subCa]⟩]

/-- Each authority has issued one certificate. -/
def issuedRows (script : String) : List ParseResult :=
  if script = dumpCertificatesScript rootCa none (some "") 1 1000 then
    [⟨"WebServer", "TUlJQzd=="⟩]
  else if script = dumpCertificatesScript subCa none (some "") 1 1000 then
    [⟨"User", "TUlJQzd=="⟩]
  else []

def sampleEnvironment : Environment where
  AuthorityInstance := Unit
  authorityInstance _ := .ok ()
  session _ := .ok (printingHost issuedRows)
  eval frame s := .ok (frame.keep (.bool (s = "True")))
  searchPageSize := 1000

def sampleOrigins : List (AuthorityData × ParseResult) :=
  [(rootCa, ⟨"WebServer", "TUlJQzd=="⟩), (subCa, ⟨"User", "TUlJQzd=="⟩)]

/-- A dump of one page that is not full. -/
lemma exists_collectCa_printed {rowsOf : String → List ParseResult} {ca : AuthorityData}
    {row : ParseResult} (hrow : row.Printable)
    (hrows : rowsOf (dumpCertificatesScript ca none issuedAfter 1 1000) = [row]) (w : Wire) :
    ∃ w', Returns (collectCa (printingHost rowsOf) [] issuedAfter 1000 1 [] ca) w [row] w' := by
  obtain ⟨w', hfetch⟩ :
      ∃ w', Returns (fetchPage (printingHost rowsOf) issuedAfter 1000 ca none 1) w [row] w' := by
    refine ⟨{ w with sent := w.sent ++ [dumpCertificatesScript ca none issuedAfter 1 1000] }, ?_⟩
    rw [fetchPage, returns_bind]
    have hrender : Renders [row] (formatList [row]) := renders_formatList (by simpa using hrow)
    have haccepts : (printingHost rowsOf).Accepts (printed [row]) :=
      .of_decode _ (decode_toUTF8 _) rfl
    refine ⟨printed [row], _, returns_runPs.mpr ⟨?_, haccepts, rfl⟩, returns_lift.mpr ⟨?_, rfl⟩⟩
    · exact congrArg (fun rows => Except.ok (printed rows)) hrows
    · exact parseCertificates_of_renders hrender (printed_stdOut [row])
  refine ⟨w', ?_⟩
  rw [collectCa, queries, if_pos rfl, List.foldlM_cons, returns_bind]
  refine ⟨[row], _, ?_, returns_pure.mpr ⟨rfl, rfl⟩⟩
  rw [collectQuery, returns_bind]
  exact ⟨[row], _, hfetch, returns_pure.mpr ⟨rfl, rfl⟩⟩

/-- Two authorities are dumped one after the other. -/
lemma returns_collectCasOrigins_pair {ca ca' : AuthorityData} {w₁ w₂ : Wire}
    {certificates certificates' : List ParseResult}
    (h : Returns (collectCa host templates issuedAfter pageSize fuel [] ca) w certificates w₁)
    (h' : Returns (collectCa host templates issuedAfter pageSize fuel [] ca') w₁ certificates' w₂) :
    Returns (collectCasOrigins host templates issuedAfter pageSize fuel [ca, ca']) w
      (certificates.map (fun cert => (ca, cert)) ++ certificates'.map fun cert => (ca', cert))
      w₂ := by
  rw [collectCasOrigins, List.foldlM_cons, returns_bind]
  refine ⟨_, w₁, returns_bind.mpr ⟨_, w₁, h, returns_pure.mpr ⟨rfl, rfl⟩⟩, ?_⟩
  rw [List.foldlM_cons, returns_bind]
  exact ⟨_, w₂, returns_bind.mpr ⟨_, w₂, h', returns_pure.mpr ⟨rfl, rfl⟩⟩,
    returns_pure.mpr ⟨rfl, rfl⟩⟩

lemma sample_collectCas (w : Wire) : ∃ w', Returns
    (collectCasOrigins (printingHost issuedRows) [] (some "") 1000 1 [rootCa, subCa]) w
      sampleOrigins w' := by
  have hroot : issuedRows (dumpCertificatesScript rootCa none (some "") 1 1000) =
      [⟨"WebServer", "TUlJQzd=="⟩] := if_pos rfl
  have hsub : issuedRows (dumpCertificatesScript subCa none (some "") 1 1000) =
      [⟨"User", "TUlJQzd=="⟩] := by
    rw [issuedRows, if_neg, if_pos rfl]
    intro h
    exact absurd (baseCommand_name (dumpCertificatesScript_baseCommand h)) (by decide)
  obtain ⟨w₁, h₁⟩ := exists_collectCa_printed (sampleRows_printable (by simp [sampleRows])) hroot w
  obtain ⟨w₂, h₂⟩ := exists_collectCa_printed (sampleRows_printable (by simp [sampleRows])) hsub w₁
  exact ⟨w₂, returns_collectCasOrigins_pair h₁ h₂⟩

/-- Both authorities are dumped. -/
lemma sample_origins : ∃ w, Returns (collectOrigins sampleEnvironment 1 sampleAttributes) ⟨[], 0⟩
    ([rootCa, subCa], sampleOrigins) w := by
  obtain ⟨w, hcas⟩ := sample_collectCas ⟨[], 1⟩
  refine ⟨{ w with openShells := w.openShells - 1 }, ?_⟩
  refine returns_bind.mpr ⟨"f1b49091", ⟨[], 0⟩, returns_lift.mpr ⟨by rfl, rfl⟩, ?_⟩
  refine returns_bind.mpr ⟨(), ⟨[], 0⟩, returns_lift.mpr ⟨rfl, rfl⟩, ?_⟩
  refine returns_bind.mpr ⟨[rootCa, subCa], ⟨[], 0⟩, returns_lift.mpr ⟨by rfl, rfl⟩, ?_⟩
  refine returns_bind.mpr ⟨[], ⟨[], 0⟩, returns_lift.mpr ⟨by rfl, rfl⟩, ?_⟩
  refine returns_bind.mpr ⟨printingHost issuedRows, ⟨[], 0⟩, returns_lift.mpr ⟨rfl, rfl⟩, ?_⟩
  refine returns_bind.mpr ⟨(), ⟨[], 1⟩, rfl, ?_⟩
  refine returns_bind.mpr ⟨[rootCa, subCa], ⟨[], 1⟩, rfl, ?_⟩
  refine returns_bind.mpr ⟨sampleOrigins, w, hcas, ?_⟩
  exact returns_bind.mpr ⟨(), _, rfl, returns_pure.mpr ⟨rfl, rfl⟩⟩

/-- The ids of the certificates stored for the two rows. -/
def sampleIds : List (String × ℕ) :=
  idByFp [⟨1, certificateFingerprint "TUlJQzd==", "TUlJQzd=="⟩]
    (fingerprints (sampleOrigins.map Prod.snd))

/-- The links written for the two rows. -/
lemma sample_discoveryCertificates : ∃ links, discoveryCertificates 1 [rootCa, subCa] sampleIds 1
    [3, 4] (sampleOrigins.map Prod.snd) = .ok links := by
  refine exists_discoveryCertificates 1 1 [3, 4] (by simp) fun fp hfp => ?_
  refine exists_idByFp hfp ⟨_, List.mem_singleton_self _, ?_⟩
  simp only [fingerprints, sampleOrigins, List.map_cons, List.map_nil, List.mem_cons,
    List.not_mem_nil, or_false, or_self] at hfp
  exact hfp.symm

/-! ### Attribution of the links of a discovery -/

/-- **When the links name their authorities.** Every link of a discovery names
the authority whose dump returned its certificate, and its own template,
exactly when every authority whose dump returned a certificate has the name of
the first one. -/
theorem attributed_iff
    (hcollect : Returns (collectCertificates env fuel attributes) w (cas, total) w')
    (horigins : Returns (collectOrigins env fuel attributes) w (cas, origins) w')
    (hlinks : discoveryCertificates d cas ids first uuids total = .ok links) :
    List.Forall₂ Attributed origins links ↔
      ∀ x ∈ origins, ∀ ca ∈ cas.head?, x.1.name = ca.name := by
  have hforget : Returns (collectCertificates env fuel attributes) w
      (cas, origins.map Prod.snd) w' :=
    (collectCertificates_isImage w _ w').mpr ⟨_, horigins, rfl⟩
  obtain rfl := (Prod.mk.inj (returns_unique hcollect hforget).1).2
  exact forall₂_attributed_iff hlinks

theorem attributed_iff_sample : ∃ links,
    discoveryCertificates 1 [rootCa, subCa] sampleIds 1 [3, 4] (sampleOrigins.map Prod.snd) =
        .ok links ∧
      (List.Forall₂ Attributed sampleOrigins links ↔
        ∀ x ∈ sampleOrigins, ∀ ca ∈ [rootCa, subCa].head?, x.1.name = ca.name) := by
  obtain ⟨w, horigins⟩ := sample_origins
  obtain ⟨links, hlinks⟩ := sample_discoveryCertificates
  have hcollect := (collectCertificates_isImage _ _ w).mpr ⟨_, horigins, rfl⟩
  exact ⟨links, hlinks, attributed_iff hcollect horigins hlinks⟩

/-- Two authorities are selected and each returns a certificate: the link of the
second certificate names the first authority. -/
theorem subCa_link_names_rootCa : ∃ links w,
    Returns (collectCertificates sampleEnvironment 1 sampleAttributes) ⟨[], 0⟩
        ([rootCa, subCa], sampleOrigins.map Prod.snd) w ∧
      Returns (collectOrigins sampleEnvironment 1 sampleAttributes) ⟨[], 0⟩
        ([rootCa, subCa], sampleOrigins) w ∧
      discoveryCertificates 1 [rootCa, subCa] sampleIds 1 [3, 4] (sampleOrigins.map Prod.snd) =
        .ok links ∧
      ¬ List.Forall₂ Attributed sampleOrigins links := by
  obtain ⟨w, horigins⟩ := sample_origins
  obtain ⟨links, hlinks⟩ := sample_discoveryCertificates
  have hcollect := (collectCertificates_isImage _ _ w).mpr ⟨_, horigins, rfl⟩
  refine ⟨links, w, hcollect, horigins, hlinks, ?_⟩
  rw [forall₂_attributed_iff hlinks]
  intro hall
  exact absurd (hall (subCa, ⟨"User", "TUlJQzd=="⟩) (by simp [sampleOrigins]) rootCa rfl)
    (by decide)

end AdcsConnector
