/-
The flags of `parse_authority_data` and Python's `eval`: which texts of a CA
host are executed as expressions.

* `PythonEval`: `eval` as it compiles a text and then runs it;
* `evaluated`: a ghost run of the line machine that keeps the texts handed to
  `eval`;
* `TreatsAsData`: the flags returned are booleans or empty, and no expression
  other than the two booleans is executed;
* `treatsAsData_iff`: this holds of a text exactly when no flag line that the
  machine reaches holds another expression.
-/
import AdcsConnector.Records
import AdcsConnector.FormatList

namespace AdcsConnector

open Text

/-! ### Evaluation -/

/-- Python's `eval` on texts: a text that does not compile is refused before
anything is executed. -/
structure PythonEval where
  isExpression : String → Bool
  run : Evaluator

/-- `eval`. -/
def PythonEval.eval (py : PythonEval) : Evaluator := fun frame text =>
  if py.isExpression text then py.run frame text else .error .syntaxError

/-- The texts of the two booleans. -/
def IsBoolean (text : String) : Prop := text = "True" ∨ text = "False"

instance (text : String) : Decidable (IsBoolean text) := inferInstanceAs (Decidable (_ ∨ _))

/-- The texts handed to `eval` on the lines, up to the first exception, `ls`
being all lines of the output. -/
def evaluated (py : PythonEval) (inputData : Response) (ls : List (List Char)) :
    AuthorityData × List AuthorityData → List (List Char) → List String
  | _, [] => []
  | st, line :: lines => flagTexts line ++
      match authorityStep py.eval inputData ls st line with
      | .ok st' => evaluated py inputData ls st' lines
      | .error _ => []

/-- A flag as it may come out: a boolean, or the empty string. -/
def IsFlag (a : PyValue) : Prop := (∃ b, a = .bool b) ∨ a = .str ""

/-- The parse of an output treats it as data: what is returned has proper flags,
and no expression is executed but the two booleans. -/
structure TreatsAsData (py : PythonEval) (inputData : Response) : Prop where
  flags : ∀ cas, parseAuthorityData py.eval inputData = .ok cas →
    ∀ ca ∈ cas, IsFlag ca.isEnterprise ∧ IsFlag ca.isRoot ∧ IsFlag ca.isAccessible
  executed : ∀ ls, dumpLines inputData = .ok ls →
    ∀ text ∈ evaluated py inputData ls (.blank, []) ls, py.isExpression text → IsBoolean text

/-- A line that raises no exception: a labelled line has a value, and a flag is
one of the booleans. -/
def IsPlainLine (line : List Char) : Prop :=
  ∀ label ∈ authorityLabels, (label ++ " ").toList <+: line → ∃ value,
    getValueFromLine line = .ok value ∧ (label ∈ flagLabels → IsBoolean (String.ofList value))

/-- No flag line after plain lines only holds an expression that is not one of
the booleans. -/
def OnlyBooleans (py : PythonEval) (ls : List (List Char)) : Prop :=
  ∀ pre line post, ls = pre ++ line :: post → (∀ l ∈ pre, IsPlainLine l) →
    ∀ label ∈ flagLabels, ∀ value, IsEntry label value line →
      py.isExpression (String.ofList value) → IsBoolean (String.ofList value)

/-! ### One line -/

variable {py : PythonEval} {inputData : Response} {all : List (List Char)}
  {st st' : AuthorityData × List AuthorityData} {line : List Char}

/-- The flags of the line that are expressions are booleans. -/
def HeadBooleans (py : PythonEval) (line : List Char) : Prop :=
  ∀ label ∈ flagLabels, ∀ value, IsEntry label value line →
    py.isExpression (String.ofList value) → IsBoolean (String.ofList value)

lemma headBooleans_iff : HeadBooleans py line ↔
    ∀ text ∈ flagTexts line, py.isExpression text → IsBoolean text := by
  constructor
  · intro h text htext
    obtain ⟨label, hlabel, hentry⟩ := mem_flagTexts.mp htext
    have hbool := h label hlabel text.toList hentry
    rwa [String.ofList_toList] at hbool
  · intro h label hlabel value hentry
    refine h _ (mem_flagTexts.mpr ⟨label, hlabel, ?_⟩)
    rwa [String.toList_ofList]

lemma exists_booleanValue_iff {text : String} :
    (∃ a, booleanValue text = .ok a) ↔ IsBoolean text := by
  rw [booleanValue, IsBoolean]
  split_ifs with htrue hfalse <;> simp [*]

lemma isFlag_of_booleanValue {text : String} {a : PyValue} (h : booleanValue text = .ok a) :
    IsFlag a := by
  rcases exists_booleanValue_iff.mp ⟨a, h⟩ with rfl | rfl
  · exact .inl ⟨true, (Except.ok.inj h).symm⟩
  · exact .inl ⟨false, (Except.ok.inj h).symm⟩

/-- As long as expressions are booleans, a flag has the value of its text. -/
lemma authorityStep_eval (heval : EvalsBooleans py.eval) (hhead : HeadBooleans py line) :
    authorityStep py.eval inputData all st line = (textFormat booleanValue).step st line := by
  refine authorityStep_eq fun text htext => ?_
  by_cases hexpr : py.isExpression text
  · rcases headBooleans_iff.mp hhead text htext hexpr with rfl | rfl
    · exact heval.true _
    · exact heval.false _
  · have hno : ¬ IsBoolean text := by
      rintro (rfl | rfl)
      · have htrue := heval.true ⟨inputData, all, line, st.1, st.2⟩
        rw [PythonEval.eval, if_neg hexpr] at htrue
        cases htrue
      · have hfalse := heval.false ⟨inputData, all, line, st.1, st.2⟩
        rw [PythonEval.eval, if_neg hexpr] at hfalse
        cases hfalse
    rw [IsBoolean, not_or] at hno
    rw [PythonEval.eval, if_neg hexpr, booleanValue, if_neg hno.1, if_neg hno.2]
    rfl

lemma step_of_unrecognised (h : Unrecognised authorityLabels line) :
    (textFormat booleanValue).step st line = .ok st :=
  RecordFormat.step_of_unrecognised (by exact h) st

/-- A labelled line without a value raises. -/
lemma exists_value_of_step {label : String} (hlabel : label ∈ authorityLabels)
    (hpre : (label ++ " ").toList <+: line)
    (h : (textFormat booleanValue).step st line = .ok st') :
    ∃ value, getValueFromLine line = .ok value := by
  cases hvalue : getValueFromLine line with
  | ok value => exact ⟨value, rfl⟩
  | error e =>
      rw [RecordFormat.step_of_no_value (by exact hlabel) hpre hvalue] at h
      cases h

/-- What a labelled line does to the values. -/
lemma step_of_label {label : String} (hlabel : label ∈ authorityLabels) {value : List Char}
    (h : IsEntry label value line) (σ : String → PyValue) (cas : List AuthorityData) :
    (textFormat booleanValue).step ((authorityReading booleanValue).build σ, cas) line =
      (readAuthority booleanValue label (String.ofList value)).map fun a =>
        if label = "ServiceStatus" then (.blank,
          cas ++ [(authorityReading booleanValue).build (Function.update σ label a)])
        else ((authorityReading booleanValue).build (Function.update σ label a), cas) := by
  have hentry : IsEntry label (String.ofList value).toList line := by
    rwa [String.toList_ofList]
  rw [@RecordFormat.step_of_isEntry _ (textFormat booleanValue) (authorityFormat_plain _)
    (label, String.ofList value) line hlabel hentry]
  exact @Reading.entryStep_eq _ (textFormat booleanValue) (authorityReading booleanValue) σ cas
    (label, String.ofList value) hlabel

/-- Every record is built of values. -/
lemma exists_build (ca : AuthorityData) :
    ∃ σ, ca = (authorityReading booleanValue).build σ :=
  ⟨fun label => match label with
    | "Name" => .str ca.name
    | "DisplayName" => .str ca.displayName
    | "ComputerName" => .str ca.computerName
    | "ConfigString" => .str ca.configString
    | "Type" => .str ca.caType
    | "IsEnterprise" => ca.isEnterprise
    | "IsRoot" => ca.isRoot
    | "IsAccessible" => ca.isAccessible
    | _ => ca.serviceStatus, rfl⟩

/-- As long as expressions are booleans, the lines that raise nothing are the
plain ones. -/
lemma step_isOk_iff (heval : EvalsBooleans py.eval) (hhead : HeadBooleans py line) :
    (∃ st', authorityStep py.eval inputData all st line = .ok st') ↔ IsPlainLine line := by
  obtain ⟨record, cas⟩ := st
  obtain ⟨σ, rfl⟩ := exists_build record
  rw [authorityStep_eval heval hhead]
  constructor
  · rintro ⟨st', hstep⟩ label hlabel hpre
    obtain ⟨value, hvalue⟩ := exists_value_of_step hlabel hpre hstep
    refine ⟨value, hvalue, fun hflag => exists_booleanValue_iff.mp ?_⟩
    rw [step_of_label hlabel ⟨hpre, hvalue⟩, readAuthority, if_pos hflag] at hstep
    cases hread : booleanValue (String.ofList value) with
    | ok a => exact ⟨a, rfl⟩
    | error e =>
        rw [hread] at hstep
        cases hstep
  · intro hplain
    rcases unrecognised_or_begins line with hunrec | ⟨label, hlabel, hpre⟩
    · exact ⟨_, step_of_unrecognised hunrec⟩
    · obtain ⟨value, hvalue, hbool⟩ := hplain label hlabel hpre
      rw [step_of_label hlabel ⟨hpre, hvalue⟩, readAuthority]
      by_cases hflag : label ∈ flagLabels
      · obtain ⟨a, ha⟩ := exists_booleanValue_iff.mpr (hbool hflag)
        rw [if_pos hflag, ha]
        exact ⟨_, rfl⟩
      · rw [if_neg hflag]
        exact ⟨_, rfl⟩

/-! ### Flags returned -/

/-- An authority with proper flags. -/
def AuthorityData.ProperFlags (ca : AuthorityData) : Prop :=
  IsFlag ca.isEnterprise ∧ IsFlag ca.isRoot ∧ IsFlag ca.isAccessible

lemma properFlags_build {σ : String → PyValue} (h : ∀ label ∈ flagLabels, IsFlag (σ label)) :
    ((authorityReading booleanValue).build σ).ProperFlags :=
  ⟨h "IsEnterprise" (by decide), h "IsRoot" (by decide), h "IsAccessible" (by decide)⟩

/-- The flags of the authorities found so far and of the pending one. -/
def FlagsProper (st : AuthorityData × List AuthorityData) : Prop :=
  st.1.ProperFlags ∧ ∀ ca ∈ st.2, ca.ProperFlags

/-- A line keeps the flags proper. -/
lemma FlagsProper.step (hstep : (textFormat booleanValue).step st line = .ok st')
    (h : FlagsProper st) : FlagsProper st' := by
  rcases unrecognised_or_begins line with hunrec | ⟨label, hlabel, hpre⟩
  · rw [step_of_unrecognised hunrec] at hstep
    exact Except.ok.inj hstep ▸ h
  obtain ⟨value, hvalue⟩ := exists_value_of_step hlabel hpre hstep
  obtain ⟨record, cas⟩ := st
  obtain ⟨σ, rfl⟩ := exists_build record
  rw [step_of_label hlabel ⟨hpre, hvalue⟩] at hstep
  cases hread : readAuthority booleanValue label (String.ofList value) with
  | error e =>
      rw [hread] at hstep
      cases hstep
  | ok a =>
      have hσ : ∀ flag ∈ flagLabels, IsFlag (σ flag) := by
        intro flag hflag
        fin_cases hflag
        · exact h.1.1
        · exact h.1.2.1
        · exact h.1.2.2
      have hupdate : ∀ flag ∈ flagLabels, IsFlag (Function.update σ label a flag) := by
        intro flag hflag
        by_cases heq : flag = label
        · subst heq
          rw [readAuthority, if_pos hflag] at hread
          rw [Function.update_self]
          exact isFlag_of_booleanValue hread
        · rw [Function.update_of_ne heq]
          exact hσ flag hflag
      rw [hread] at hstep
      by_cases hcomplete : label = "ServiceStatus"
      · simp only [Except.map, hcomplete, if_true] at hstep
        obtain rfl := Except.ok.inj hstep
        refine ⟨⟨.inr rfl, .inr rfl, .inr rfl⟩, fun ca hca => ?_⟩
        rcases List.mem_append.mp hca with hca | hca
        · exact h.2 ca hca
        · rw [List.mem_singleton.mp hca]
          exact properFlags_build (hcomplete ▸ hupdate)
      · simp only [Except.map, hcomplete, if_false] at hstep
        obtain rfl := Except.ok.inj hstep
        exact ⟨properFlags_build hupdate, h.2⟩

/-! ### All lines -/

lemma evaluated_cons_of_ok {ls : List (List Char)}
    (h : authorityStep py.eval inputData all st line = .ok st') :
    evaluated py inputData all st (line :: ls) =
      flagTexts line ++ evaluated py inputData all st' ls := by
  rw [evaluated, h]

/-- A run that returns keeps the flags proper if the expressions it has executed
are booleans. -/
lemma FlagsProper.foldlM (heval : EvalsBooleans py.eval) {ls : List (List Char)}
    (hexec : ∀ text ∈ evaluated py inputData all st ls, py.isExpression text → IsBoolean text)
    (hrun : ls.foldlM (authorityStep py.eval inputData all) st = .ok st') (h : FlagsProper st) :
    FlagsProper st' := by
  induction ls generalizing st with
  | nil =>
      obtain rfl := Except.ok.inj hrun
      exact h
  | cons line ls ih =>
      rw [List.foldlM_cons] at hrun
      cases hstep : authorityStep py.eval inputData all st line with
      | error e =>
          rw [hstep] at hrun
          cases hrun
      | ok st₁ =>
          rw [hstep] at hrun
          rw [evaluated_cons_of_ok hstep, List.forall_mem_append] at hexec
          rw [authorityStep_eval heval (headBooleans_iff.mpr hexec.1)] at hstep
          exact ih hexec.2 hrun (h.step hstep)

/-- The condition on a text, line by line. -/
lemma onlyBooleans_cons {ls : List (List Char)} : OnlyBooleans py (line :: ls) ↔
    HeadBooleans py line ∧ (IsPlainLine line → OnlyBooleans py ls) := by
  constructor
  · intro h
    refine ⟨h [] line ls rfl (by simp), fun hplain pre line' post hls hpre => ?_⟩
    exact h (line :: pre) line' post (by rw [hls, List.cons_append])
      (List.forall_mem_cons.mpr ⟨hplain, hpre⟩)
  · rintro ⟨hhead, hrest⟩ pre line' post hls hpre
    cases pre with
    | nil =>
        obtain ⟨rfl, -⟩ := List.cons.inj hls
        exact hhead
    | cons l pre =>
        obtain ⟨rfl, hls'⟩ := List.cons.inj hls
        rw [List.forall_mem_cons] at hpre
        exact hrest hpre.1 pre line' post hls' hpre.2

/-- The expressions executed are booleans exactly when no flag line reached
holds another one. -/
lemma executed_iff (heval : EvalsBooleans py.eval) (ls : List (List Char)) :
    (∀ text ∈ evaluated py inputData all st ls, py.isExpression text → IsBoolean text) ↔
      OnlyBooleans py ls := by
  induction ls generalizing st with
  | nil => simp [evaluated, OnlyBooleans]
  | cons line ls ih =>
      rw [onlyBooleans_cons, headBooleans_iff, evaluated, List.forall_mem_append]
      refine and_congr_right fun hhead => ?_
      have hplain := @step_isOk_iff py inputData all st line heval (headBooleans_iff.mpr hhead)
      cases hstep : authorityStep py.eval inputData all st line with
      | ok st' => exact ih.trans ⟨fun h _ => h, fun h => h (hplain.mp ⟨st', hstep⟩)⟩
      | error e =>
          refine iff_of_true (by simp) fun hline => ?_
          obtain ⟨st', hst'⟩ := hplain.mpr hline
          rw [hstep] at hst'
          cases hst'

/-- **When remote output is treated as data.** For every output and every
evaluator that knows the two booleans, the parse treats the output as data
exactly when no flag line, after plain lines only, holds an expression that is
not one of the booleans. -/
theorem treatsAsData_iff (heval : EvalsBooleans py.eval) (inputData : Response) :
    TreatsAsData py inputData ↔
      ∀ ls, dumpLines inputData = .ok ls → OnlyBooleans py ls := by
  constructor
  · intro h ls hls
    exact (executed_iff heval ls).mp (h.executed ls hls)
  · intro h
    refine ⟨fun cas hcas => ?_, fun ls hls => (executed_iff heval ls).mpr (h ls hls)⟩
    rw [parseAuthorityData] at hcas
    cases hls : dumpLines inputData with
    | error e =>
        rw [hls] at hcas
        cases hcas
    | ok ls =>
        rw [hls] at hcas
        cases hrun : ls.foldlM (authorityStep py.eval inputData ls) (.blank, []) with
        | error e =>
            simp only [bind, Except.bind, hrun] at hcas
            cases hcas
        | ok st =>
            simp only [bind, Except.bind, hrun] at hcas
            obtain rfl := Except.ok.inj hcas
            have hproper : FlagsProper (.blank, []) :=
              ⟨⟨.inr rfl, .inr rfl, .inr rfl⟩, by simp⟩
            exact (hproper.foldlM heval ((executed_iff heval ls).mpr (h ls hls)) hrun).2

/-! ### An integer flag -/

/-- `eval` on the booleans and on one integer literal. -/
def literalEval : PythonEval where
  isExpression text := text ∈ ["True", "False", "1"]
  run frame text :=
    if text = "True" then .ok (frame.keep (.bool true))
    else if text = "False" then .ok (frame.keep (.bool false))
    else .ok (frame.keep (.int 1))

lemma literalEval_evalsBooleans : EvalsBooleans literalEval.eval :=
  ⟨fun _ => rfl, fun _ => rfl⟩

def booleanFlag : String := "IsRoot : False\nServiceStatus : Running"

def integerFlag : String := "IsRoot : 1\nServiceStatus : Running"

/-- An output whose only flag is a boolean. -/
theorem treatsAsData_sample : TreatsAsData literalEval (printedText booleanFlag) := by
  refine (treatsAsData_iff literalEval_evalsBooleans _).mpr fun ls hls => ?_
  rw [dumpLines_printedText] at hls
  obtain rfl := Except.ok.inj hls
  have hlines : lines (strip booleanFlag.toList) =
      ["IsRoot : False".toList, "ServiceStatus : Running".toList] := by decide
  rw [hlines, onlyBooleans_cons, onlyBooleans_cons, headBooleans_iff, headBooleans_iff]
  exact ⟨by decide, fun _ => ⟨by decide, fun _ => by simp [OnlyBooleans]⟩⟩

/-- An integer is evaluated, and comes out as a flag. -/
theorem integer_evaluated : ¬ TreatsAsData literalEval (printedText integerFlag) ∧
    parseAuthorityData literalEval.eval (printedText integerFlag) =
      .ok [⟨"", "", "", "", "", .str "", .int 1, .str "", .str "Running"⟩] := by
  have hlines : lines (strip integerFlag.toList) =
      ["IsRoot : 1".toList, "ServiceStatus : Running".toList] := by decide
  constructor
  · intro h
    have hbool := h.executed _ (dumpLines_printedText _) "1" (by rw [hlines]; decide) (by decide)
    exact absurd hbool (by decide)
  · rw [parseAuthorityData, dumpLines_printedText, hlines]
    rfl

end AdcsConnector
