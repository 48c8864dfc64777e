/-
The lexical structure of PowerShell texts with double-quoted strings: a double
quote opens a string, an unescaped one ends it (two in a row stand for the second
inside it), a `$` starts an expansion, a backtick escapes. The three typographic
double quotes are double quotes, too.

* `Lexer`, `Lexer.step`: the lexer, character by character; `tokens`: the code
  and the string literals of a text, a literal as its characters, escapes and
  expansions;
* `Token.shape`: a token without the plain characters of its literal;
* `Plain`: a text without double quotes, dollars and backticks;
  `foldl_step_eq_iff`: the plain texts are exactly those that a literal takes
  as they are;
* `Piece`: the pieces of a text with holes, with `HolesInLiterals`, which says
  that every hole stands in a literal;
* `kept_iff`: two fillings of a template have tokens of the same shapes, with
  every value within its literal and unchanged, exactly when both are plain.
-/
import Mathlib.Tactic

namespace Quoting

/-! ### The lexer -/

/-- What a double-quoted string is made of. -/
inductive Part where
  | char (c : Char)
  | escape (c : Char)
  | expansion (name : List Char)
  deriving DecidableEq

/-- Code outside the strings is kept as text. -/
inductive Token where
  | code (text : List Char)
  | literal (parts : List Part)
  | unterminated (parts : List Part)
  deriving DecidableEq

/-- Where the lexer is: in code, in a literal, after a backtick, in the name
of an expansion, or after a double quote in a literal. -/
inductive Mode where
  | code (text : List Char)
  | literal (parts : List Part)
  | backtick (parts : List Part)
  | dollar (parts : List Part) (name : List Char)
  | quote (parts : List Part)
  deriving DecidableEq

/-- The tokens that are complete, and the token being read. -/
structure Lexer where
  tokens : List Token
  mode : Mode
  deriving DecidableEq

/-- The double quotes: `"`, and the typographic ones U+201C, U+201D and U+201E. -/
def isDoubleQuote (c : Char) : Bool :=
  c = '"' || c = '\u201c' || c = '\u201d' || c = '\u201e'

/-- The characters of the name of a variable. -/
def isNameChar (c : Char) : Bool := c.isAlphanum || c = '_'

namespace Lexer

/-- A character inside a literal. -/
def stepLiteral (tokens : List Token) (parts : List Part) (c : Char) : Lexer :=
  if isDoubleQuote c then ⟨tokens, .quote parts⟩
  else if c = '$' then ⟨tokens, .dollar parts []⟩
  else if c = '\x60' then ⟨tokens, .backtick parts⟩
  else ⟨tokens, .literal (parts ++ [.char c])⟩

/-- One character. -/
def step (s : Lexer) (c : Char) : Lexer :=
  match s.mode with
  | .code text =>
      if isDoubleQuote c then ⟨s.tokens ++ [.code text], .literal []⟩
      else ⟨s.tokens, .code (text ++ [c])⟩
  | .literal parts => stepLiteral s.tokens parts c
  | .backtick parts => ⟨s.tokens, .literal (parts ++ [.escape c])⟩
  | .dollar parts name =>
      if isNameChar c then ⟨s.tokens, .dollar parts (name ++ [c])⟩
      else stepLiteral s.tokens (parts ++ [.expansion name]) c
  | .quote parts =>
      if isDoubleQuote c then ⟨s.tokens, .literal (parts ++ [.char c])⟩
      else ⟨s.tokens ++ [.literal parts], .code [c]⟩

/-- Before the text. -/
def start : Lexer := ⟨[], .code []⟩

/-- The tokens at the end of the text. -/
def finish (s : Lexer) : List Token :=
  match s.mode with
  | .code text => s.tokens ++ [.code text]
  | .literal parts => s.tokens ++ [.unterminated parts]
  | .backtick parts => s.tokens ++ [.unterminated parts]
  | .dollar parts name => s.tokens ++ [.unterminated (parts ++ [.expansion name])]
  | .quote parts => s.tokens ++ [.literal parts]

end Lexer

/-- The tokens of a text. -/
def tokens (text : List Char) : List Token := (text.foldl Lexer.step Lexer.start).finish

/-! ### Plain texts -/

/-- The characters that mean something inside a literal. -/
def IsSpecial (c : Char) : Prop := isDoubleQuote c ∨ c = '$' ∨ c = '\x60'

instance (c : Char) : Decidable (IsSpecial c) :=
  inferInstanceAs (Decidable (isDoubleQuote c ∨ c = '$' ∨ c = '\x60'))

/-- A text without special characters. -/
def Plain (text : List Char) : Prop := ∀ c ∈ text, ¬ IsSpecial c

instance (text : List Char) : Decidable (Plain text) :=
  decidable_of_iff (text.all fun c => !decide (IsSpecial c)) (by simp [Plain])

namespace Lexer

lemma step_literal (toks : List Token) (parts : List Part) (c : Char) :
    step ⟨toks, .literal parts⟩ c = stepLiteral toks parts c := rfl

@[simp] lemma tokens_stepLiteral (toks : List Token) (parts : List Part) (c : Char) :
    (stepLiteral toks parts c).tokens = toks := by
  unfold stepLiteral
  split_ifs <;> rfl

lemma stepLiteral_of_not_special {c : Char} (hc : ¬ IsSpecial c) (toks : List Token)
    (parts : List Part) :
    stepLiteral toks parts c = ⟨toks, .literal (parts ++ [.char c])⟩ := by
  rw [IsSpecial, not_or, not_or] at hc
  rw [stepLiteral, if_neg hc.1, if_neg hc.2.1, if_neg hc.2.2]

/-- A plain text inside a literal is read as it is. -/
lemma foldl_step_of_plain {v : List Char} (hv : Plain v) (toks : List Token)
    (parts : List Part) :
    v.foldl step ⟨toks, .literal parts⟩ = ⟨toks, .literal (parts ++ v.map .char)⟩ := by
  induction v generalizing parts with
  | nil => simp
  | cons c v ih =>
      rw [List.foldl_cons, step_literal, stepLiteral_of_not_special (hv c List.mem_cons_self),
        ih fun d hd => hv d (List.mem_cons_of_mem _ hd), List.map_cons, List.append_assoc,
        List.singleton_append]

/-- The plain characters among the parts of a literal. -/
def chars (parts : List Part) : ℕ := parts.countP fun p => p matches .char _

/-- The plain characters read so far in the literal that is open. -/
def charCount (s : Lexer) : ℕ :=
  match s.mode with
  | .code _ => 0
  | .literal parts | .backtick parts | .dollar parts _ | .quote parts => chars parts

@[simp] lemma chars_append (parts parts' : List Part) :
    chars (parts ++ parts') = chars parts + chars parts' :=
  List.countP_append

lemma chars_map_char (v : List Char) : chars (v.map .char) = v.length := by
  induction v with
  | nil => rfl
  | cons c v ih =>
      rw [List.map_cons, chars, List.countP_cons_of_pos rfl, List.length_cons]
      exact congrArg (· + 1) ih

lemma charCount_stepLiteral_le (toks : List Token) (parts : List Part) (c : Char) :
    (stepLiteral toks parts c).charCount ≤ chars parts + 1 := by
  unfold stepLiteral
  split_ifs <;> simp [charCount, chars]

/-- A special character adds no plain character. -/
lemma charCount_stepLiteral_of_special {c : Char} (hc : IsSpecial c) (toks : List Token)
    (parts : List Part) : (stepLiteral toks parts c).charCount = chars parts := by
  unfold stepLiteral
  split_ifs with h₁ h₂ h₃
  · rfl
  · rfl
  · rfl
  · exact absurd hc (by simp [IsSpecial, h₁, h₂, h₃])

/-- A character completes no token and adds at most one plain character, or it
completes a token. -/
lemma step_progress (s : Lexer) (c : Char) :
    (s.step c).tokens = s.tokens ∧ (s.step c).charCount ≤ s.charCount + 1 ∨
      s.tokens.length < (s.step c).tokens.length := by
  obtain ⟨toks, text | parts | parts | ⟨parts, name⟩ | parts⟩ := s
  · by_cases hc : isDoubleQuote c <;> simp [step, hc, charCount]
  · exact .inl ⟨tokens_stepLiteral _ _ _, charCount_stepLiteral_le _ _ _⟩
  · exact .inl ⟨rfl, by simp [step, charCount, chars]⟩
  · by_cases hc : isNameChar c
    · exact .inl ⟨by simp [step, hc], by simp [step, hc, charCount]⟩
    · refine .inl ⟨by simp [step, hc], ?_⟩
      have hle := charCount_stepLiteral_le toks (parts ++ [.expansion name]) c
      rw [chars_append] at hle
      simpa [step, hc, charCount, chars] using hle
  · by_cases hc : isDoubleQuote c <;> simp [step, hc, charCount, chars]

/-- A text read without a token being completed adds at most its length. -/
lemma foldl_progress (v : List Char) (s : Lexer) :
    (v.foldl step s).tokens = s.tokens ∧ (v.foldl step s).charCount ≤ s.charCount + v.length ∨
      s.tokens.length < (v.foldl step s).tokens.length := by
  induction v generalizing s with
  | nil => exact .inl ⟨rfl, le_rfl⟩
  | cons c v ih =>
      rw [List.foldl_cons, List.length_cons]
      obtain ⟨htok, hcount⟩ | hlt := step_progress s c
      · obtain ⟨htok', hcount'⟩ | hlt' := ih (s.step c)
        · exact .inl ⟨htok'.trans htok, by omega⟩
        · exact .inr (htok ▸ hlt')
      · obtain ⟨htok', -⟩ | hlt' := ih (s.step c)
        · exact .inr (htok' ▸ hlt)
        · exact .inr (hlt.trans hlt')

/-- **The plain texts are those a literal takes as they are.** -/
theorem foldl_step_eq_iff {v : List Char} {toks : List Token} {parts : List Part} :
    v.foldl step ⟨toks, .literal parts⟩ = ⟨toks, .literal (parts ++ v.map .char)⟩ ↔
      Plain v := by
  refine ⟨fun h => ?_, fun hv => foldl_step_of_plain hv toks parts⟩
  induction v generalizing parts with
  | nil => exact fun c hc => absurd hc List.not_mem_nil
  | cons c v ih =>
      rw [List.foldl_cons, step_literal] at h
      have hc : ¬ IsSpecial c := by
        intro hc
        -- a special character leaves less to read than there are characters to come
        have hstep := charCount_stepLiteral_of_special hc toks parts
        have hend : (v.foldl step (stepLiteral toks parts c)).charCount =
            chars parts + (v.length + 1) := by
          rw [h, ← List.length_cons, ← chars_map_char (c :: v), ← chars_append]
          rfl
        have htok : (v.foldl step (stepLiteral toks parts c)).tokens = toks := by rw [h]
        obtain ⟨-, hle⟩ | hlt := foldl_progress v (stepLiteral toks parts c)
        · omega
        · rw [htok, tokens_stepLiteral] at hlt
          omega
      rw [stepLiteral_of_not_special hc] at h
      refine List.forall_mem_cons.mpr ⟨hc, ih (h.trans ?_)⟩
      rw [List.map_cons, List.append_assoc, List.singleton_append]

end Lexer

/-! ### Shapes -/

/-- What is not a plain character. -/
def marks (parts : List Part) : List Part := parts.filter fun p => !(p matches .char _)

@[simp] lemma marks_append (parts parts' : List Part) :
    marks (parts ++ parts') = marks parts ++ marks parts' :=
  List.filter_append _ _

@[simp] lemma marks_marks (parts : List Part) : marks (marks parts) = marks parts :=
  List.filter_filter.trans (by simp [marks])

lemma marks_map_char (v : List Char) : marks (v.map .char) = [] :=
  List.filter_eq_nil_iff.mpr (by simp)

/-- A token without the plain characters of its literal. -/
def Token.shape : Token → Token
  | .code text => .code text
  | .literal parts => .literal (marks parts)
  | .unterminated parts => .unterminated (marks parts)

@[simp] lemma Token.shape_code (text : List Char) : (Token.code text).shape = .code text := rfl

@[simp] lemma Token.shape_literal (parts : List Part) :
    (Token.literal parts).shape = .literal (marks parts) := rfl

@[simp] lemma Token.shape_unterminated (parts : List Part) :
    (Token.unterminated parts).shape = .unterminated (marks parts) := rfl

@[simp] lemma Token.shape_shape (t : Token) : t.shape.shape = t.shape := by
  cases t <;> simp

/-- A mode without the plain characters of its literal. -/
def Mode.shape : Mode → Mode
  | .code text => .code text
  | .literal parts => .literal (marks parts)
  | .backtick parts => .backtick (marks parts)
  | .dollar parts name => .dollar (marks parts) name
  | .quote parts => .quote (marks parts)

namespace Lexer

/-- A state of the lexer without the plain characters. -/
def shape (s : Lexer) : Lexer := ⟨s.tokens.map Token.shape, s.mode.shape⟩

lemma shape_stepLiteral (toks : List Token) (parts : List Part) (c : Char) :
    (stepLiteral (toks.map Token.shape) (marks parts) c).shape =
      (stepLiteral toks parts c).shape := by
  unfold stepLiteral
  split_ifs <;> simp [shape, Mode.shape]

/-- The shape after a character is determined by the shape before it. -/
lemma shape_step (s : Lexer) (c : Char) : (s.shape.step c).shape = (s.step c).shape := by
  obtain ⟨toks, text | parts | parts | ⟨parts, name⟩ | parts⟩ := s
  · by_cases hc : isDoubleQuote c <;> simp [shape, Mode.shape, step, hc]
  · exact shape_stepLiteral toks parts c
  · simp [shape, Mode.shape, step]
  · by_cases hc : isNameChar c
    · simp [shape, Mode.shape, step, hc]
    · have h := shape_stepLiteral toks (parts ++ [.expansion name]) c
      simpa [shape, Mode.shape, step, hc, marks] using h
  · by_cases hc : isDoubleQuote c <;> simp [shape, Mode.shape, step, hc]

lemma shape_foldl_congr {s t : Lexer} (h : s.shape = t.shape) (text : List Char) :
    (text.foldl step s).shape = (text.foldl step t).shape := by
  induction text generalizing s t with
  | nil => exact h
  | cons c text ih =>
      refine ih ?_
      rw [← shape_step, h, shape_step]

lemma shape_finish (s : Lexer) :
    s.shape.finish.map Token.shape = s.finish.map Token.shape := by
  obtain ⟨toks, text | parts | parts | ⟨parts, name⟩ | parts⟩ := s <;>
    simp [shape, Mode.shape, finish]

/-- A plain text inside a literal does not change the shape. -/
lemma shape_foldl_of_plain {v : List Char} (hv : Plain v) (toks : List Token)
    (parts : List Part) :
    (v.foldl step ⟨toks, .literal parts⟩).shape = shape ⟨toks, .literal parts⟩ := by
  rw [foldl_step_of_plain hv]
  simp [shape, Mode.shape, marks_map_char]

end Lexer

/-! ### Places -/

/-- Where the lexer is, without what it has read. -/
inductive Place where
  | code
  | literal
  | backtick
  | dollar
  | quote
  deriving DecidableEq

namespace Place

/-- A character inside a literal. -/
def stepLiteral (c : Char) : Place :=
  if isDoubleQuote c then .quote else if c = '$' then .dollar else if c = '\x60' then .backtick
  else .literal

/-- One character. -/
def step (p : Place) (c : Char) : Place :=
  match p with
  | .code => if isDoubleQuote c then .literal else .code
  | .literal => stepLiteral c
  | .backtick => .literal
  | .dollar => if isNameChar c then .dollar else stepLiteral c
  | .quote => if isDoubleQuote c then .literal else .code

/-- A text read from the place `p` on leaves the lexer at the place `q`. -/
def Leads (p : Place) (s : String) (q : Place) : Prop := s.toList.foldl step p = q

lemma leads_ofList {p q : Place} {text : List Char} (h : text.foldl step p = q) :
    Leads p (String.ofList text) q := by
  rwa [Leads, String.toList_ofList]

lemma Leads.append {p q r : Place} {s s' : String} (h : Leads p s q) (h' : Leads q s' r) :
    Leads p (s ++ s') r := by
  rw [Leads] at h h' ⊢
  rw [String.toList_append, List.foldl_append, h, h']

/-- Code without double quotes stays code. -/
lemma leads_code {s : String} (h : ∀ c ∈ s.toList, ¬ isDoubleQuote c) :
    Leads .code s .code := by
  rw [Leads]
  revert h
  induction s.toList with
  | nil => exact fun _ => rfl
  | cons c text ih =>
      intro h
      rw [List.forall_mem_cons] at h
      rw [List.foldl_cons, step, if_neg h.1, ih h.2]

end Place

/-- The place of a mode. -/
def Mode.place : Mode → Place
  | .code _ => .code
  | .literal _ => .literal
  | .backtick _ => .backtick
  | .dollar _ _ => .dollar
  | .quote _ => .quote

@[simp] lemma Mode.place_shape (m : Mode) : m.shape.place = m.place := by
  cases m <;> rfl

namespace Lexer

lemma place_stepLiteral (toks : List Token) (parts : List Part) (c : Char) :
    (stepLiteral toks parts c).mode.place = Place.stepLiteral c := by
  unfold stepLiteral Place.stepLiteral
  split_ifs <;> rfl

lemma place_step (s : Lexer) (c : Char) : (s.step c).mode.place = s.mode.place.step c := by
  obtain ⟨toks, text | parts | parts | ⟨parts, name⟩ | parts⟩ := s
  · by_cases hc : isDoubleQuote c <;> simp [step, Mode.place, Place.step, hc]
  · exact place_stepLiteral _ _ _
  · rfl
  · by_cases hc : isNameChar c
    · simp [step, Mode.place, Place.step, hc]
    · simpa [step, Mode.place, Place.step, hc] using place_stepLiteral _ _ _
  · by_cases hc : isDoubleQuote c <;> simp [step, Mode.place, Place.step, hc]

lemma place_foldl (text : List Char) (s : Lexer) :
    (text.foldl step s).mode.place = text.foldl Place.step s.mode.place := by
  induction text generalizing s with
  | nil => rfl
  | cons c text ih => rw [List.foldl_cons, List.foldl_cons, ih, place_step]

end Lexer

/-! ### Templates -/

universe u

/-- A piece of a text: fixed, or a hole for the value of `i`. -/
inductive Piece (ι : Type u) where
  | fixed (text : List Char)
  | value (i : ι)

variable {ι : Type u}

/-- A piece with a fixed text. -/
def Piece.str (s : String) : Piece ι := .fixed s.toList

/-- The text of a piece. -/
def Piece.text (env : ι → List Char) : Piece ι → List Char
  | .fixed text => text
  | .value i => env i

/-- A template with its holes filled. -/
def render (t : List (Piece ι)) (env : ι → List Char) : List Char := t.flatMap (Piece.text env)

@[simp] lemma render_nil (env : ι → List Char) : render [] env = [] := rfl

@[simp] lemma render_str (s : String) (t : List (Piece ι)) (env : ι → List Char) :
    render (.str s :: t) env = s.toList ++ render t env := by
  rw [render, List.flatMap_cons, Piece.str, Piece.text, render]

@[simp] lemma render_value (i : ι) (t : List (Piece ι)) (env : ι → List Char) :
    render (.value i :: t) env = env i ++ render t env := by
  rw [render, List.flatMap_cons, Piece.text, render]

@[simp] lemma render_append (t t' : List (Piece ι)) (env : ι → List Char) :
    render (t ++ t') env = render t env ++ render t' env := List.flatMap_append

/-- The values that leave every hole empty. -/
def blank : ι → List Char := fun _ => []

/-- The state of the lexer after a text. -/
def lexed (text : List Char) : Lexer := text.foldl Lexer.step Lexer.start

/-- Every hole stands in a literal, where the values are plain. -/
def HolesInLiterals (p : Place) : List (Piece ι) → Prop
  | [] => True
  | .fixed text :: t => HolesInLiterals (text.foldl Place.step p) t
  | .value _ :: t => p = .literal ∧ HolesInLiterals p t

/-- The values of the holes are plain. -/
def PlainValues (t : List (Piece ι)) (env : ι → List Char) : Prop :=
  ∀ i, .value i ∈ t → Plain (env i)

@[simp] lemma plainValues_nil (env : ι → List Char) : PlainValues [] env :=
  fun _ hi => absurd hi List.not_mem_nil

@[simp] lemma plainValues_str (s : String) (t : List (Piece ι)) (env : ι → List Char) :
    PlainValues (.str s :: t) env ↔ PlainValues t env := by
  refine forall_congr' fun i => ?_
  rw [List.mem_cons, or_iff_right (by simp [Piece.str])]

@[simp] lemma plainValues_value (i : ι) (t : List (Piece ι)) (env : ι → List Char) :
    PlainValues (.value i :: t) env ↔ Plain (env i) ∧ PlainValues t env := by
  simp [PlainValues, or_imp, forall_and]

@[simp] lemma plainValues_append (t t' : List (Piece ι)) (env : ι → List Char) :
    PlainValues (t ++ t') env ↔ PlainValues t env ∧ PlainValues t' env := by
  simp [PlainValues, or_imp, forall_and]

/-- Every value lies within the literal its hole stands in, and adds just its
own characters to it: the literal is told by the tokens before it when every
hole is empty. -/
def Kept (t : List (Piece ι)) (env : ι → List Char) : Prop :=
  ∀ before i after, t = before ++ .value i :: after → ∃ parts,
    (lexed (render before env)).mode = .literal parts ∧
    (lexed (render before env)).tokens.length = (lexed (render before blank)).tokens.length ∧
    (env i).foldl Lexer.step (lexed (render before env)) =
      ⟨(lexed (render before env)).tokens, .literal (parts ++ (env i).map .char)⟩

lemma holesInLiterals_append {p : Place} {t t' : List (Piece ι)} :
    HolesInLiterals p (t ++ t') ↔
      HolesInLiterals p t ∧ HolesInLiterals ((render t blank).foldl Place.step p) t' := by
  induction t generalizing p with
  | nil => simp [HolesInLiterals, render]
  | cons piece t ih =>
      cases piece with
      | fixed text =>
          rw [List.cons_append, HolesInLiterals, HolesInLiterals, ih, render, render,
            List.flatMap_cons, Piece.text, List.foldl_append]
      | value i =>
          rw [List.cons_append, HolesInLiterals, HolesInLiterals, ih, and_assoc]
          rfl

lemma HolesInLiterals.str {p q : Place} {s : String} {t : List (Piece ι)}
    (h : Place.Leads p s q) (ht : HolesInLiterals q t) : HolesInLiterals p (.str s :: t) := by
  rwa [Piece.str, HolesInLiterals, h]

lemma HolesInLiterals.value {t : List (Piece ι)} (i : ι) (ht : HolesInLiterals .literal t) :
    HolesInLiterals .literal (.value i :: t) :=
  ⟨rfl, ht⟩

/-- Fillings with plain values have the same shape. -/
lemma shape_render_congr {t : List (Piece ι)} {env env' : ι → List Char}
    (hplain : PlainValues t env) (hplain' : PlainValues t env') {s s' : Lexer}
    (hholes : HolesInLiterals s.mode.place t) (h : s.shape = s'.shape) :
    ((render t env).foldl Lexer.step s).shape = ((render t env').foldl Lexer.step s').shape := by
  induction t generalizing s s' with
  | nil => exact h
  | cons piece t ih =>
      have ht : PlainValues t env := fun i hi => hplain i (List.mem_cons_of_mem _ hi)
      have ht' : PlainValues t env' := fun i hi => hplain' i (List.mem_cons_of_mem _ hi)
      rw [render, render, List.flatMap_cons, List.flatMap_cons, List.foldl_append,
        List.foldl_append]
      cases piece with
      | fixed text =>
          rw [HolesInLiterals, ← Lexer.place_foldl] at hholes
          exact ih ht ht' hholes (Lexer.shape_foldl_congr h text)
      | value i =>
          obtain ⟨toks, mode⟩ := s
          obtain ⟨toks', mode'⟩ := s'
          have hplace : mode'.place = mode.place := by
            rw [← mode'.place_shape, ← mode.place_shape]
            exact congrArg (fun s : Lexer => s.mode.place) h.symm
          obtain ⟨parts, rfl⟩ : ∃ parts, mode = .literal parts := by
            cases mode <;> simp_all [HolesInLiterals, Mode.place]
          obtain ⟨parts', rfl⟩ : ∃ parts, mode' = .literal parts := by
            cases mode' <;> simp_all [Mode.place]
          have hshape := Lexer.shape_foldl_of_plain (hplain i List.mem_cons_self) toks parts
          have hshape' := Lexer.shape_foldl_of_plain (hplain' i List.mem_cons_self) toks' parts'
          refine ih ht ht' ?_ (hshape.trans (h.trans hshape'.symm))
          rw [Piece.text, Lexer.foldl_step_of_plain (hplain i List.mem_cons_self)]
          exact hholes.2

lemma plainValues_blank (t : List (Piece ι)) : PlainValues t (blank : ι → List Char) :=
  fun _ _ _ hc => absurd hc List.not_mem_nil

variable {t : List (Piece ι)}

/-- Plain values are exactly those that are kept. -/
lemma kept_iff_plainValues (hholes : HolesInLiterals .code t) {env : ι → List Char} :
    Kept t env ↔ PlainValues t env := by
  constructor
  · intro hkept i hi
    obtain ⟨before, after, rfl⟩ := List.append_of_mem hi
    obtain ⟨parts, hmode, -, hfold⟩ := hkept before i after rfl
    have hlexed : lexed (render before env) =
        ⟨(lexed (render before env)).tokens, .literal parts⟩ := by rw [← hmode]
    rw [hlexed] at hfold
    exact Lexer.foldl_step_eq_iff.mp hfold
  · rintro hplain before i after rfl
    have hbefore : PlainValues before env := fun j hj => hplain j (List.mem_append_left _ hj)
    obtain ⟨hholes, hplace, -⟩ := holesInLiterals_append.mp hholes
    have hshape : (lexed (render before env)).shape = (lexed (render before blank)).shape :=
      shape_render_congr hbefore (plainValues_blank before) hholes rfl
    have hplace' : (lexed (render before env)).mode.place = .literal := by
      have hmode := congrArg (fun s : Lexer => s.mode.place) hshape
      rw [← hplace, ← Mode.place_shape]
      exact hmode.trans (by rw [Lexer.shape, Mode.place_shape, lexed, Lexer.place_foldl]; rfl)
    obtain ⟨parts, hmode⟩ : ∃ parts, (lexed (render before env)).mode = .literal parts := by
      cases hmode : (lexed (render before env)).mode <;> simp_all [Mode.place]
    refine ⟨parts, hmode, ?_, ?_⟩
    · have hlength := congrArg (fun s : Lexer => s.tokens.length) hshape
      simpa [Lexer.shape] using hlength
    · have hlexed : lexed (render before env) =
          ⟨(lexed (render before env)).tokens, .literal parts⟩ := by rw [← hmode]
      have hi : Plain (env i) := hplain i (List.mem_append_right _ List.mem_cons_self)
      conv_lhs => rw [hlexed]
      exact Lexer.foldl_step_of_plain hi _ parts

/-- **Fillings of a template.** Two fillings of a template have tokens of the
same shapes, and every value lies unchanged within its literal, exactly when
the values of both are plain. -/
theorem kept_iff (hholes : HolesInLiterals .code t) {env env' : ι → List Char} :
    (tokens (render t env)).map Token.shape = (tokens (render t env')).map Token.shape ∧
      Kept t env ∧ Kept t env' ↔ PlainValues t env ∧ PlainValues t env' := by
  rw [kept_iff_plainValues hholes, kept_iff_plainValues hholes, and_iff_right_iff_imp]
  rintro ⟨hplain, hplain'⟩
  have hshape : (lexed (render t env)).shape = (lexed (render t env')).shape :=
    shape_render_congr hplain hplain' hholes rfl
  calc (tokens (render t env)).map Token.shape
      = (lexed (render t env)).shape.finish.map Token.shape := (Lexer.shape_finish _).symm
    _ = (lexed (render t env')).shape.finish.map Token.shape := by rw [hshape]
    _ = (tokens (render t env')).map Token.shape := Lexer.shape_finish _

end Quoting
