/-
A fragment of PowerShell: assignments, calls of a COM object, conditionals, a
do-until loop and `throw`, with the text each statement is written as.

* `Value`, `Value.ge`, `Value.add`: values and the rules for `$null`: an
  unassigned variable is null, adding to null starts from 0, and a number is at
  least null when it is not negative;
* `Stmt`, `Stmt.print`: statements and their text;
* `Stmt.run`: what a statement does, over a host that answers the calls;
* `run_seq_of_ok`, `run_ifElse`: the rules for sequences and conditionals;
* `run_doUntil_of_holds`: a loop whose exit test holds after its body ends
  there; `run_doUntil_zero`: without fuel it does not end.
-/
import AdcsConnector.Library.Program

namespace Shell

open Program

/-! ### Values -/

/-- The values of variables. -/
inductive Value where
  | null
  | int (n : ℤ)
  | str (s : String)
  | object
  deriving DecidableEq

namespace Value

/-- `-eq`. -/
def eq (a b : Value) : Bool := decide (a = b)

/-- `-ge`: null lies between the negative numbers and 0. -/
def ge : Value → Value → Bool
  | int a, int b => decide (b ≤ a)
  | int a, null => decide (0 ≤ a)
  | null, int b => decide (b < 0)
  | null, null => true
  | _, _ => false

/-- `+`, on numbers and null. -/
def add : Value → Value → Value
  | null, v => v
  | int a, int b => int (a + b)
  | v, _ => v

/-- A value as text. -/
def text : Value → String
  | null => ""
  | int n => toString n
  | str s => s
  | object => "System.__ComObject"

end Value

/-! ### Programs and their text -/

/-- What an argument or an operand is. -/
inductive Atom where
  | var (name : String)
  | int (n : ℤ)
  | hex (n : ℕ)

/-- What a double-quoted string is made of. -/
inductive Segment where
  | text (s : String)
  | var (name : String)

/-- What is assigned to a variable. -/
inductive Expr where
  | atom (a : Atom)
  | quoted (segments : List Segment)
  | newObject (progId : String)
  | invoke (object method : String) (args : List Atom)

/-- A condition. -/
inductive Cond where
  | eq (a b : Atom)
  | ge (a b : Atom)
  | or (c d : Cond)

/-- A statement; `setup` is text that only concerns the console, and the
blanks before an equals sign and a comment are kept. -/
inductive Stmt where
  | setup (text : String)
  | blank
  | assign (name gap : String) (e : Expr)
  | addAssign (name : String) (a : Atom)
  | sleep (a : Atom)
  | output (name : String)
  | throw (segments : List Segment)
  | seq (s t : Stmt)
  | ifElse (c : Cond) (s t : Stmt)
  | doUntil (s : Stmt) (c : Cond) (comment : String)

/-- Statements one after the other. -/
def Stmt.block (s : Stmt) : List Stmt → Stmt
  | [] => s
  | t :: ts => .seq s (t.block ts)

def Atom.print : Atom → String
  | var name => "$" ++ name
  | int n => toString n
  | hex n => "0x" ++ String.ofList (Nat.toDigits 16 n)

def Segment.print : Segment → String
  | text s => s
  | var name => "$" ++ name

/-- A double-quoted string. -/
def printQuoted (segments : List Segment) : String :=
  "\"" ++ String.join (segments.map Segment.print) ++ "\""

def Expr.print : Expr → String
  | atom a => a.print
  | quoted segments => printQuoted segments
  | newObject progId => "New-Object -ComObject " ++ progId
  | invoke object method args =>
      "$" ++ object ++ "." ++ method ++ "(" ++ ", ".intercalate (args.map Atom.print) ++ ")"

def Cond.print : Cond → String
  | eq a b => a.print ++ " -eq " ++ b.print
  | ge a b => a.print ++ " -ge " ++ b.print
  | or c d => c.print ++ " -or " ++ d.print

/-- A line at a margin. -/
def line (margin text : String) : String := margin ++ text ++ "\n"

/-- A statement at a margin. -/
def Stmt.print (margin : String) : Stmt → String
  | setup text => line margin text
  | blank => "\n"
  | assign name gap e => line margin ("$" ++ name ++ gap ++ "= " ++ e.print)
  | addAssign name a => line margin ("$" ++ name ++ " += " ++ a.print)
  | sleep a => line margin ("Start-Sleep -Milliseconds " ++ a.print)
  | output name => line margin ("$" ++ name)
  | throw segments => line margin ("throw " ++ printQuoted segments)
  | seq s t => s.print margin ++ t.print margin
  | ifElse c s t =>
      line margin ("if (" ++ c.print ++ ") \x7b") ++ s.print (margin ++ "    ") ++
        line margin "\x7d else \x7b" ++ t.print (margin ++ "    ") ++ line margin "\x7d"
  | doUntil s c comment =>
      line margin "do \x7b" ++ s.print (margin ++ "    ") ++
        line margin ("\x7d until (" ++ c.print ++ ")" ++ comment)

lemma printQuoted_text (s : String) : printQuoted [.text s] = "\"" ++ s ++ "\"" := by
  simp [printQuoted, Segment.print, String.join_cons]

lemma printQuoted_text_text (s t : String) :
    printQuoted [.text s, .text t] = "\"" ++ (s ++ t) ++ "\"" := by
  simp [printQuoted, Segment.print, String.join_cons]

lemma print_assign (name gap : String) (e : Expr) :
    (Stmt.assign name gap e).print "" = "$" ++ name ++ gap ++ "= " ++ e.print ++ "\n" := by
  rw [Stmt.print, line, String.empty_append]

lemma print_quoted (segments : List Segment) :
    (Expr.quoted segments).print = printQuoted segments := rfl

lemma print_int (n : ℤ) : (Expr.atom (.int n)).print = toString n := rfl

lemma print_assign_text (name gap s : String) :
    (Stmt.assign name gap (.quoted [.text s])).print "" =
      "$" ++ name ++ gap ++ "= " ++ "\"" ++ s ++ "\"" ++ "\n" := by
  rw [print_assign, print_quoted, printQuoted_text]
  simp only [String.append_assoc]

lemma print_assign_text_text (name gap s t : String) :
    (Stmt.assign name gap (.quoted [.text s, .text t])).print "" =
      "$" ++ name ++ gap ++ "= " ++ "\"" ++ s ++ t ++ "\"" ++ "\n" := by
  rw [print_assign, print_quoted, printQuoted_text_text]
  simp only [String.append_assoc]

lemma print_assign_int (name gap : String) (n : ℤ) :
    (Stmt.assign name gap (.atom (.int n))).print "" =
      "$" ++ name ++ gap ++ "= " ++ toString n ++ "\n" := by
  rw [print_assign, print_int]

lemma print_seq (margin : String) (s t : Stmt) :
    (Stmt.seq s t).print margin = s.print margin ++ t.print margin := by
  rw [Stmt.print]

lemma print_ifElse {margin inner : String} (h : margin ++ "    " = inner) (c : Cond)
    (s t : Stmt) :
    (Stmt.ifElse c s t).print margin =
      line margin ("if (" ++ c.print ++ ") \x7b") ++ s.print inner ++
        line margin "\x7d else \x7b" ++ t.print inner ++ line margin "\x7d" := by
  rw [Stmt.print, h]

lemma print_doUntil {margin inner : String} (h : margin ++ "    " = inner) (s : Stmt) (c : Cond)
    (comment : String) :
    (Stmt.doUntil s c comment).print margin =
      line margin "do \x7b" ++ s.print inner ++
        line margin ("\x7d until (" ++ c.print ++ ")" ++ comment) := by
  rw [Stmt.print, h]

/-! ### What a program does -/

/-- How the calls of a program are answered. -/
structure Callee (ω : Type) where
  invoke : String → List Value → ω → Value × ω
  sleep : Value → ω → ω

/-- The variables, what has been output, and the host. -/
structure Memory (ω : Type) where
  vars : String → Value
  output : List Value
  host : ω

variable {ω : Type}

namespace Memory

/-- Before a program, no variable is assigned. -/
def init (host : ω) : Memory ω := ⟨fun _ => .null, [], host⟩

/-- A variable assigned. -/
def set (s : Memory ω) (name : String) (v : Value) : Memory ω :=
  { s with vars := Function.update s.vars name v }

@[simp] lemma set_vars_self (s : Memory ω) (name : String) (v : Value) :
    (s.set name v).vars name = v := Function.update_self ..

@[simp] lemma set_vars_ne (s : Memory ω) {name name' : String} (h : name' ≠ name) (v : Value) :
    (s.set name v).vars name' = s.vars name' := Function.update_of_ne h ..

@[simp] lemma set_output (s : Memory ω) (name : String) (v : Value) :
    (s.set name v).output = s.output := rfl

@[simp] lemma set_host (s : Memory ω) (name : String) (v : Value) :
    (s.set name v).host = s.host := rfl

end Memory

def Atom.eval (s : Memory ω) : Atom → Value
  | var name => s.vars name
  | int n => .int n
  | hex n => .int n

def Segment.eval (s : Memory ω) : Segment → String
  | text t => t
  | var name => (s.vars name).text

/-- The text of a double-quoted string, its variables expanded. -/
def evalQuoted (s : Memory ω) (segments : List Segment) : String :=
  String.join (segments.map (Segment.eval s))

lemma evalQuoted_text_var_text (s : Memory ω) (t name t' : String) :
    evalQuoted s [.text t, .var name, .text t'] = t ++ (s.vars name).text ++ t' := by
  simp [evalQuoted, Segment.eval, String.join_cons, String.append_assoc]

def Expr.eval (h : Callee ω) (s : Memory ω) : Expr → Value × ω
  | atom a => (a.eval s, s.host)
  | quoted segments => (.str (evalQuoted s segments), s.host)
  | newObject _ => (.object, s.host)
  | invoke _ method args => h.invoke method (args.map (Atom.eval s)) s.host

def Cond.eval (s : Memory ω) : Cond → Bool
  | eq a b => (a.eval s).eq (b.eval s)
  | ge a b => (a.eval s).ge (b.eval s)
  | or c d => c.eval s || d.eval s

/-- The body of a loop until its exit test holds, within the fuel. -/
def loop (body : Program (Memory ω) String Unit) (exit : Memory ω → Bool) :
    ℕ → Program (Memory ω) String Unit
  | 0 => outOfFuel
  | fuel + 1 => do
      body
      fun s => if exit s then some (.ok (), s) else loop body exit fuel s

/-- What a statement does; an exception is the text thrown. -/
def Stmt.run (h : Callee ω) (fuel : ℕ) : Stmt → Program (Memory ω) String Unit
  | setup _ => fun s => some (.ok (), s)
  | blank => fun s => some (.ok (), s)
  | assign name _ e => fun s =>
      some (.ok (), { s with host := (e.eval h s).2 }.set name (e.eval h s).1)
  | addAssign name a => fun s => some (.ok (), s.set name ((s.vars name).add (a.eval s)))
  | sleep a => fun s => some (.ok (), { s with host := h.sleep (a.eval s) s.host })
  | output name => fun s => some (.ok (), { s with output := s.output ++ [s.vars name] })
  | throw segments => fun s => some (.error (evalQuoted s segments), s)
  | seq s t => do
      s.run h fuel
      t.run h fuel
  | ifElse c s t => fun st => if c.eval st then s.run h fuel st else t.run h fuel st
  | doUntil s c _ => loop (s.run h fuel) (Cond.eval · c) fuel

/-! ### Rules -/

variable {h : Callee ω} {fuel : ℕ} {st st' : Memory ω}

/-- A sequence goes on where its first part ends. -/
lemma run_seq_of_ok {s t : Stmt} (hs : s.run h fuel st = some (.ok (), st')) :
    (Stmt.seq s t).run h fuel st = t.run h fuel st' := by
  simp only [Stmt.run, bind, hs]

/-- A sequence ends where its first part throws. -/
lemma run_seq_of_error {s t : Stmt} {text : String}
    (hs : s.run h fuel st = some (.error text, st')) :
    (Stmt.seq s t).run h fuel st = some (.error text, st') := by
  simp only [Stmt.run, bind, hs]

/-- A sequence whose first part does not end does not end. -/
lemma run_seq_of_none {s t : Stmt} (hs : s.run h fuel st = none) :
    (Stmt.seq s t).run h fuel st = none := by
  simp only [Stmt.run, bind, hs]

/-- A sequence after the assignment of a value that leaves the host alone. -/
lemma run_seq_assign {name gap : String} {e : Expr} {t : Stmt} {v : Value}
    (he : e.eval h st = (v, st.host)) :
    (Stmt.seq (.assign name gap e) t).run h fuel st = t.run h fuel (st.set name v) := by
  refine run_seq_of_ok ?_
  simp only [Stmt.run, he]

lemma run_seq_blank {t : Stmt} : (Stmt.seq .blank t).run h fuel st = t.run h fuel st := rfl

lemma run_output {name : String} :
    (Stmt.output name).run h fuel st =
      some (.ok (), { st with output := st.output ++ [st.vars name] }) := rfl

lemma eval_quoted_text (s : String) :
    Expr.eval h st (.quoted [.text s]) = (.str s, st.host) := by
  simp [Expr.eval, evalQuoted, Segment.eval, String.join_cons]

lemma eval_quoted_text_text (s t : String) :
    Expr.eval h st (.quoted [.text s, .text t]) = (.str (s ++ t), st.host) := by
  simp [Expr.eval, evalQuoted, Segment.eval, String.join_cons]

lemma run_ifElse {c : Cond} {s t : Stmt} :
    (Stmt.ifElse c s t).run h fuel st =
      if c.eval st then s.run h fuel st else t.run h fuel st := rfl

/-- A loop ends as soon as its exit test holds. -/
lemma run_doUntil_of_holds {s : Stmt} {c : Cond} {comment : String}
    (hs : s.run h (fuel + 1) st = some (.ok (), st')) (hc : c.eval st' = true) :
    (Stmt.doUntil s c comment).run h (fuel + 1) st = some (.ok (), st') := by
  simp only [Stmt.run, loop, bind, hs, hc, if_true]

/-- A loop without fuel does not end. -/
lemma run_doUntil_zero {s : Stmt} {c : Cond} {comment : String} :
    (Stmt.doUntil s c comment).run h 0 st = none := rfl

end Shell
