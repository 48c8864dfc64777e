/-
The ConfigString `computer\name`, by which two services are told their
certification authority: `get_ca_from_attributes` and `discover_certificates`.

* `ConfigStringOf`: the strings of the grammar, with their parts;
* `configString_cases`, `caOfConfigString_eq`: the split, by the backslashes of
  the string;
* `ConfigStringResolved`: what both services are to make of a string;
* `configString_resolved_iff`: they do so of all strings but those without a
  backslash, and those that go on after computer and name.
-/
import AdcsConnector.CertificateManagement

namespace AdcsConnector

variable {s : String}

/-! ### The grammar -/

/-- A part of a ConfigString: not empty, and without a backslash. -/
def IsConfigPart (part : String) : Prop := part ≠ "" ∧ '\\' ∉ part.toList

/-- A computer and a name with a backslash between them. -/
structure ConfigStringOf (computer name s : String) : Prop where
  eq : s = computer ++ "\\" ++ name
  computer : IsConfigPart computer
  name : IsConfigPart name

/-- The error for a string outside the grammar. -/
def wrongFormat (s : String) : PyError := .exception ("Wrong format of ConfigString: " ++ s)

/-- The error for an empty string. -/
def configStringRequired : PyError :=
  .exception "ConfigString is required with selected CA Method: configstring"

/-- The authority of a ConfigString. -/
def configStringCa (computer name s : String) : AuthorityData :=
  ⟨name, name, computer, s, "", .none, .none, .none, .none⟩

/-- What both services are to make of a ConfigString. -/
structure ConfigStringResolved (s : String) (ca : Except PyError AuthorityData)
    (cas : Except PyError (List AuthorityData)) : Prop where
  agree : (∃ data, ca = .ok data ∧ cas = .ok [data]) ∨ ∃ e e', ca = .error e ∧ cas = .error e'
  accepts : (∃ data, ca = .ok data) ↔ ∃ computer name, ConfigStringOf computer name s
  parts : ∀ computer name data, ConfigStringOf computer name s → ca = .ok data →
    data.computerName = computer ∧ data.name = name ∧ data.configString = s
  wrong : s ≠ "" → (¬ ∃ computer name, ConfigStringOf computer name s) →
    ca = .error (wrongFormat s) ∧ cas = .error (wrongFormat s)
  required : s = "" → ca = .error configStringRequired ∧ cas = .error configStringRequired

lemma isConfigPart_ofList {part : List Char} (hne : part ≠ []) (hpart : '\\' ∉ part) :
    IsConfigPart (String.ofList part) := by
  rw [IsConfigPart, String.toList_ofList]
  refine ⟨fun h => hne ?_, hpart⟩
  rw [← String.toList_ofList (l := part), h, String.toList_empty]

/-! ### The split -/

/-- A string has no backslash, or its first one is between two parts, the second
of which ends the string or is followed by another backslash. -/
lemma configString_cases (s : List Char) :
    '\\' ∉ s ∨ ∃ computer name tail, s = computer ++ '\\' :: (name ++ tail) ∧
      '\\' ∉ computer ∧ '\\' ∉ name ∧ (tail = [] ∨ ∃ rest, tail = '\\' :: rest) := by
  by_cases hs : '\\' ∈ s
  · obtain ⟨computer, after, rfl, hcomputer⟩ := List.eq_append_cons_of_mem hs
    refine .inr ?_
    by_cases hafter : '\\' ∈ after
    · obtain ⟨name, rest, rfl, hname⟩ := List.eq_append_cons_of_mem hafter
      exact ⟨computer, name, '\\' :: rest, rfl, hcomputer, hname, .inr ⟨rest, rfl⟩⟩
    · exact ⟨computer, after, [], by rw [List.append_nil], hcomputer, hafter, .inl rfl⟩
  · exact .inl hs

/-- Without a backslash the split has one part only. -/
lemma caOfConfigString_of_not_mem (h : '\\' ∉ s.toList) :
    caOfConfigString s = .error .indexError := by
  rw [caOfConfigString, List.splitOn_eq_singleton h]

/-- The first two parts decide, whatever follows them. -/
lemma caOfConfigString_eq {computer name tail : List Char}
    (hs : s.toList = computer ++ '\\' :: (name ++ tail)) (hcomputer : '\\' ∉ computer)
    (hname : '\\' ∉ name) (htail : tail = [] ∨ ∃ rest, tail = '\\' :: rest) :
    caOfConfigString s = if name = [] ∨ computer = [] then .error (wrongFormat s)
      else .ok (configStringCa (String.ofList computer) (String.ofList name) s) := by
  rw [caOfConfigString, hs, List.splitOn_append_cons_self_of_not_mem hcomputer]
  rcases htail with rfl | ⟨rest, rfl⟩
  · rw [List.append_nil, List.splitOn_eq_singleton hname]
    rfl
  · rw [List.splitOn_append_cons_self_of_not_mem hname]
    rfl

/-! ### The two services -/

/-- What either service makes of a ConfigString. -/
def resolveConfigString (s : String) : Except PyError AuthorityData :=
  if s = "" then .error configStringRequired else caOfConfigString s

variable {attributes : List Attribute}

lemma getCaFromAttributes_configString
    (hmethod : getAttributeValue "raprofile_select_ca_method" attributes = .str "configstring")
    (hs : getAttributeValue "raprofile_config_string" attributes = .str s) :
    getCaFromAttributes attributes = resolveConfigString s := by
  have hsearch : AttributeData.str "configstring" ≠ .str "search" := by decide
  rw [getCaFromAttributes, hmethod, if_neg hsearch, if_pos rfl, hs, resolveConfigString]
  split_ifs with h
  · rw [h]
    rfl
  · split <;> simp_all

lemma selectCas_configString
    (hmethod : getAttributeValue "discovery_select_ca_method" attributes = .str "configstring")
    (hs : getAttributeValue "discovery_config_string" attributes = .str s) :
    selectCas attributes = (resolveConfigString s).map fun ca => [ca] := by
  have hsearch : AttributeData.str "configstring" ≠ .str "search" := by decide
  rw [selectCas, hmethod, if_neg hsearch, if_pos rfl, hs, resolveConfigString]
  split_ifs with h
  · rw [h]
    rfl
  · split <;> simp_all

/-- A string that the services do not resolve by the grammar: it has no
backslash, or it goes on after its computer and its name. -/
def Misread (s : String) : Prop :=
  s ≠ "" ∧ '\\' ∉ s.toList ∨
    ∃ computer name rest, s = computer ++ "\\" ++ name ++ "\\" ++ rest ∧
      IsConfigPart computer ∧ IsConfigPart name

/-- A string of the grammar has one backslash. -/
lemma ConfigStringOf.toList {computer name : String} (h : ConfigStringOf computer name s) :
    s.toList = computer.toList ++ '\\' :: (name.toList ++ []) := by
  rw [h.eq, String.toList_append, String.toList_append, List.append_nil, List.append_assoc]
  rfl

/-- A string of the grammar is resolved to its parts. -/
lemma ConfigStringOf.resolve {computer name : String} (h : ConfigStringOf computer name s) :
    resolveConfigString s = .ok (configStringCa computer name s) := by
  have hs := h.toList
  have hne : s ≠ "" := by
    rintro rfl
    simp at hs
  have hparts : ¬ (name.toList = [] ∨ computer.toList = []) := by
    rw [String.toList_eq_nil_iff, String.toList_eq_nil_iff]
    exact not_or.mpr ⟨h.name.1, h.computer.1⟩
  rw [resolveConfigString, if_neg hne,
    caOfConfigString_eq hs h.computer.2 h.name.2 (.inl rfl), if_neg hparts, String.ofList_toList,
    String.ofList_toList]

/-- Every other string that is not misread is refused. -/
lemma resolve_of_not_misread (hmisread : ¬ Misread s)
    (hs : ¬ ∃ computer name, ConfigStringOf computer name s) :
    resolveConfigString s = .error (if s = "" then configStringRequired else wrongFormat s) := by
  rw [resolveConfigString]
  split_ifs with hempty
  · rfl
  rcases configString_cases s.toList with hno | ⟨computer, name, tail, heq, hcomputer, hname, htail⟩
  · exact absurd (.inl ⟨hempty, hno⟩) hmisread
  rw [caOfConfigString_eq heq hcomputer hname htail, if_pos]
  -- with two parts it would be of the grammar, or go on after them
  by_contra hparts
  obtain ⟨hname', hcomputer'⟩ := not_or.mp hparts
  have hcomputerPart := isConfigPart_ofList hcomputer' hcomputer
  have hnamePart := isConfigPart_ofList hname' hname
  rcases htail with rfl | ⟨rest, rfl⟩
  · refine hs ⟨String.ofList computer, String.ofList name, ?_, hcomputerPart, hnamePart⟩
    rw [← String.toList_inj, heq]
    simp
  · refine hmisread (.inr ⟨String.ofList computer, String.ofList name, String.ofList rest, ?_,
      hcomputerPart, hnamePart⟩)
    rw [← String.toList_inj, heq]
    simp

/-- A string that is misread is not of the grammar. -/
lemma Misread.not_configStringOf {computer name : String} (h : Misread s) :
    ¬ ConfigStringOf computer name s := by
  intro hs
  have hone : s.toList.count '\\' = 1 := by
    rw [hs.toList, List.append_nil, List.count_append, List.count_cons_self,
      List.count_eq_zero_of_not_mem hs.computer.2, List.count_eq_zero_of_not_mem hs.name.2]
  rcases h with ⟨-, hno⟩ | ⟨computer', name', rest, rfl, -, -⟩
  · rw [List.count_eq_zero_of_not_mem hno] at hone
    omega
  · simp only [String.toList_append, List.count_append] at hone
    have hbackslash : "\\".toList.count '\\' = 1 := rfl
    omega

/-- The two ways to misread a string: an `IndexError`, and an authority. -/
lemma Misread.resolve (h : Misread s) :
    s ≠ "" ∧ (resolveConfigString s = .error .indexError ∨
      ∃ data, resolveConfigString s = .ok data) := by
  rcases h with ⟨hne, hno⟩ | ⟨computer, name, rest, rfl, hcomputer, hname⟩
  · refine ⟨hne, .inl ?_⟩
    rw [resolveConfigString, if_neg hne, caOfConfigString_of_not_mem hno]
  · have hlist : (computer ++ "\\" ++ name ++ "\\" ++ rest).toList =
        computer.toList ++ '\\' :: (name.toList ++ '\\' :: rest.toList) := by
      simp
    have hne : computer ++ "\\" ++ name ++ "\\" ++ rest ≠ "" := by
      intro heq
      rw [heq] at hlist
      simp at hlist
    have hparts : ¬ (name.toList = [] ∨ computer.toList = []) := by
      rw [String.toList_eq_nil_iff, String.toList_eq_nil_iff]
      exact not_or.mpr ⟨hname.1, hcomputer.1⟩
    have hca := caOfConfigString_eq hlist hcomputer.2 hname.2 (.inr ⟨_, rfl⟩)
    rw [if_neg hparts] at hca
    exact ⟨hne, .inr ⟨_, by rw [resolveConfigString, if_neg hne, hca]⟩⟩

/-- A string of the grammar names one authority, in both services. -/
lemma ConfigStringOf.resolved {computer name : String} (h : ConfigStringOf computer name s) :
    ConfigStringResolved s (resolveConfigString s)
      ((resolveConfigString s).map fun ca => [ca]) where
  agree := .inl ⟨_, h.resolve, by rw [h.resolve]; rfl⟩
  accepts := iff_of_true ⟨_, h.resolve⟩ ⟨computer, name, h⟩
  parts computer' name' data h' hdata := by
    rw [h'.resolve] at hdata
    cases hdata
    exact ⟨rfl, rfl, rfl⟩
  wrong _ hno := absurd ⟨computer, name, h⟩ hno
  required hempty := by
    have hok := h.resolve
    rw [resolveConfigString, if_pos hempty] at hok
    cases hok

/-- A string that is refused has no other error than the two. -/
lemma resolved_of_not_misread (hmisread : ¬ Misread s)
    (hs : ¬ ∃ computer name, ConfigStringOf computer name s) :
    ConfigStringResolved s (resolveConfigString s)
      ((resolveConfigString s).map fun ca => [ca]) := by
  rw [resolve_of_not_misread hmisread hs]
  refine ⟨.inr ⟨_, _, rfl, rfl⟩, iff_of_false (fun ⟨_, h⟩ => ?_) hs,
    fun computer name _ h => absurd ⟨computer, name, h⟩ hs, fun hne _ => ?_, fun hempty => ?_⟩
  · cases h
  · rw [if_neg hne]
    exact ⟨rfl, rfl⟩
  · rw [if_pos hempty]
    exact ⟨rfl, rfl⟩

/-- **ConfigStrings.** Both services make of a string what its grammar says,
exactly when it is no text without a backslash and does not go on after its
computer and its name. -/
theorem configString_resolved_iff {raProfileAttributes discoveryAttributes : List Attribute}
    (hra : getAttributeValue "raprofile_select_ca_method" raProfileAttributes = .str "configstring")
    (hras : getAttributeValue "raprofile_config_string" raProfileAttributes = .str s)
    (hdiscovery : getAttributeValue "discovery_select_ca_method" discoveryAttributes =
      .str "configstring")
    (hdiscoverys : getAttributeValue "discovery_config_string" discoveryAttributes = .str s) :
    ConfigStringResolved s (getCaFromAttributes raProfileAttributes)
      (selectCas discoveryAttributes) ↔ ¬ Misread s := by
  rw [getCaFromAttributes_configString hra hras, selectCas_configString hdiscovery hdiscoverys]
  constructor
  · intro h hmisread
    have hgrammar : ¬ ∃ computer name, ConfigStringOf computer name s :=
      fun ⟨_, _, hs⟩ => hmisread.not_configStringOf hs
    obtain ⟨hne, hindex | hok⟩ := hmisread.resolve
    · rw [hindex] at h
      cases (h.wrong hne hgrammar).1
    · exact hgrammar (h.accepts.mp hok)
  · intro hmisread
    by_cases hs : ∃ computer name, ConfigStringOf computer name s
    · obtain ⟨computer, name, hs⟩ := hs
      exact hs.resolved
    · exact resolved_of_not_misread hmisread hs

/-! ### Samples -/

/-- The attributes of an RA profile with a ConfigString. -/
def raProfileOfConfigString (s : String) : List Attribute :=
  [⟨"raprofile_select_ca_method", [.str "configstring"]⟩, ⟨"raprofile_config_string", [.str s]⟩]

/-- The attributes of a discovery with a ConfigString. -/
def discoveryOfConfigString (s : String) : List Attribute :=
  [⟨"discovery_select_ca_method", [.str "configstring"]⟩, ⟨"discovery_config_string", [.str s]⟩]

theorem configString_resolved_sample :
    ConfigStringResolved "ca.example.local\\Root CA"
      (getCaFromAttributes (raProfileOfConfigString "ca.example.local\\Root CA"))
      (selectCas (discoveryOfConfigString "ca.example.local\\Root CA")) := by
  have hs : ConfigStringOf "ca.example.local" "Root CA" "ca.example.local\\Root CA" :=
    ⟨by decide +kernel, ⟨by decide, by decide⟩, by decide, by decide⟩
  exact (configString_resolved_iff rfl rfl rfl rfl).mpr fun h => h.not_configStringOf hs

/-- A string without a backslash raises an `IndexError`. -/
theorem configString_without_backslash :
    ¬ ∀ (s : String) (raProfileAttributes discoveryAttributes : List Attribute),
      getAttributeValue "raprofile_select_ca_method" raProfileAttributes = .str "configstring" →
      getAttributeValue "raprofile_config_string" raProfileAttributes = .str s →
      getAttributeValue "discovery_select_ca_method" discoveryAttributes = .str "configstring" →
      getAttributeValue "discovery_config_string" discoveryAttributes = .str s →
      ConfigStringResolved s (getCaFromAttributes raProfileAttributes)
        (selectCas discoveryAttributes) := by
  intro h
  have hresolved := h "ca.example.local" (raProfileOfConfigString _) (discoveryOfConfigString _)
    rfl rfl rfl rfl
  have hno : '\\' ∉ "ca.example.local".toList := by decide
  have hwrong := (hresolved.wrong (by decide) fun ⟨_, _, hs⟩ =>
    Misread.not_configStringOf (.inl ⟨by decide, hno⟩) hs).1
  rw [getCaFromAttributes_configString rfl rfl, resolveConfigString, if_neg (by decide),
    caOfConfigString_of_not_mem hno] at hwrong
  cases hwrong

end AdcsConnector
