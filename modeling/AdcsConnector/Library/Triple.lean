/-
Pre- and postconditions of programs, and of the statements of a script.

* `Program.Triple P m Q E`: from the states in `P`, what `m` ends with is a value
  and a state in `Q` or an exception and a state in `E`; the rules for sequences
  and weaker conditions;
* `Shell.triple_assign` and the rules for the other statements, with
  `Shell.triple_doUntil`: what the body of a loop keeps, the loop keeps;
* `Callee.recording`: the answers of a host, with the calls written down, and
  `run_recording`: a program does the same with and without the record;
* `Stmt.EndsWith`: what a program ends with, and the calls it has made.
-/
import AdcsConnector.Library.Dialogue
import AdcsConnector.Library.Shell

universe u

namespace Program

variable {σ ε α β : Type u}

/-- From the states in `P`, the program ends with a value and a state in `Q` or with
an exception and a state in `E`, if it ends. -/
def Triple (P : σ → Prop) (m : Program σ ε α) (Q : α → σ → Prop) (E : ε → σ → Prop) : Prop :=
  ∀ s, P s → (∀ a t, m s = some (.ok a, t) → Q a t) ∧ ∀ e t, m s = some (.error e, t) → E e t

variable {P P' : σ → Prop} {m : Program σ ε α} {Q Q' : α → σ → Prop} {E E' : ε → σ → Prop}

/-- The precondition made stronger, the postconditions made weaker. -/
lemma Triple.imp (h : Triple P m Q E) (hP : ∀ s, P' s → P s) (hQ : ∀ a s, Q a s → Q' a s)
    (hE : ∀ e s, E e s → E' e s) : Triple P' m Q' E' := by
  intro s hs
  obtain ⟨hvalue, herror⟩ := h s (hP s hs)
  exact ⟨fun a t hm => hQ a t (hvalue a t hm), fun e t hm => hE e t (herror e t hm)⟩

/-- A program that returns `a` in the state `f s` from every state `s`. -/
lemma triple_of_run {a : α} {f : σ → σ} (hrun : ∀ s, m s = some (.ok a, f s))
    (h : ∀ s, P s → Q a (f s)) : Triple P m Q E := by
  intro s hs
  refine ⟨fun b t hm => ?_, fun e t hm => ?_⟩
  · rw [hrun] at hm
    cases hm
    exact h s hs
  · rw [hrun] at hm
    cases hm

/-- The second part of a sequence starts where the first part has returned. -/
lemma Triple.bind {R : β → σ → Prop} {f : α → Program σ ε β} (hm : Triple P m Q E)
    (hf : ∀ a, Triple (Q a) (f a) R E) : Triple P (m >>= f) R E := by
  intro s hs
  obtain ⟨hvalue, herror⟩ := hm s hs
  refine ⟨fun b t hrun => ?_, fun e t hrun => ?_⟩
  · obtain ⟨a, u, hma, hfa⟩ := returns_bind.mp hrun
    exact (hf a u (hvalue a u hma)).1 b t hfa
  · rcases run_bind_eq_some.mp hrun with ⟨e', hme, heq⟩ | ⟨a, u, hma, hfa⟩
    · cases heq
      exact herror e t hme
    · exact (hf a u (hvalue a u hma)).2 e t hfa

end Program

namespace Shell

open Program

/-! ### The rules of the statements -/

section Rules

variable {ω : Type} {h : Callee ω} {fuel : ℕ} {P Q R : Memory ω → Prop}
  {E : String → Memory ω → Prop} {s t : Stmt} {c : Cond}

lemma triple_assign {name gap : String} {e : Expr}
    (hQ : ∀ st, P st → Q ({ st with host := (e.eval h st).2 }.set name (e.eval h st).1)) :
    Triple P ((Stmt.assign name gap e).run h fuel) (fun _ => Q) E :=
  triple_of_run (fun _ => rfl) hQ

lemma triple_addAssign {name : String} {a : Atom}
    (hQ : ∀ st, P st → Q (st.set name ((st.vars name).add (a.eval st)))) :
    Triple P ((Stmt.addAssign name a).run h fuel) (fun _ => Q) E :=
  triple_of_run (fun _ => rfl) hQ

lemma triple_sleep {a : Atom}
    (hQ : ∀ st, P st → Q { st with host := h.sleep (a.eval st) st.host }) :
    Triple P ((Stmt.sleep a).run h fuel) (fun _ => Q) E :=
  triple_of_run (fun _ => rfl) hQ

lemma triple_blank : Triple P (Stmt.blank.run h fuel) (fun _ => P) E :=
  triple_of_run (fun _ => rfl) fun _ => id

lemma triple_output {name : String}
    (hQ : ∀ st, P st → Q { st with output := st.output ++ [st.vars name] }) :
    Triple P ((Stmt.output name).run h fuel) (fun _ => Q) E :=
  triple_of_run (fun _ => rfl) hQ

lemma triple_throw {segments : List Segment} (hE : ∀ st, P st → E (evalQuoted st segments) st) :
    Triple P ((Stmt.throw segments).run h fuel) (fun _ => Q) E := by
  intro st hst
  refine ⟨fun a t hrun => (by cases hrun), fun e t hrun => ?_⟩
  cases hrun
  exact hE st hst

lemma triple_seq (hs : Triple P (s.run h fuel) (fun _ => R) E)
    (ht : Triple R (t.run h fuel) (fun _ => Q) E) :
    Triple P ((Stmt.seq s t).run h fuel) (fun _ => Q) E :=
  hs.bind fun _ => ht

lemma triple_ifElse
    (hs : Triple (fun st => P st ∧ c.eval st = true) (s.run h fuel) (fun _ => Q) E)
    (ht : Triple (fun st => P st ∧ c.eval st = false) (t.run h fuel) (fun _ => Q) E) :
    Triple P ((Stmt.ifElse c s t).run h fuel) (fun _ => Q) E := by
  intro st hst
  rw [run_ifElse]
  cases hc : c.eval st with
  | true => exact hs st ⟨hst, hc⟩
  | false => exact ht st ⟨hst, hc⟩

/-- What holds before a loop and is kept by its body while the exit test fails holds
before every round of the loop. -/
lemma triple_doUntil {I : Memory ω → Prop} {comment : String}
    (hs : Triple I (s.run h fuel)
      (fun _ st => (c.eval st = true → Q st) ∧ (c.eval st = false → I st)) E) :
    Triple I ((Stmt.doUntil s c comment).run h fuel) (fun _ => Q) E := by
  suffices hloop : ∀ n, Triple I (loop (s.run h fuel) (Cond.eval · c) n) (fun _ => Q) E from
    hloop fuel
  intro n
  induction n with
  | zero => exact fun st _ => ⟨fun a t hrun => (by cases hrun), fun e t hrun => by cases hrun⟩
  | succ n ih =>
      refine hs.bind fun _ st hst => ?_
      cases hc : c.eval st with
      | true =>
          simp only [hc, if_true]
          refine ⟨fun a t hrun => ?_, fun e t hrun => by cases hrun⟩
          cases hrun
          exact hst.1 hc
      | false =>
          simp only [hc, Bool.false_eq_true, if_false]
          exact ih st (hst.2 hc)

end Rules

/-! ### The calls of a program -/

/-- A call of a method, and what it has returned. -/
structure Call where
  method : String
  args : List Value
  result : Value
  deriving DecidableEq

variable {ω : Type}

/-- The same answers, and the calls written down. -/
def Callee.recording (h : Callee ω) : Callee (ω × List Call) where
  invoke method args w :=
    let r := h.invoke method args w.1
    (r.1, r.2, w.2 ++ [⟨method, args, r.1⟩])
  sleep v w := (h.sleep v w.1, w.2)

/-- Without the record. -/
def Memory.erase (st : Memory (ω × List Call)) : Memory ω := ⟨st.vars, st.output, st.host.1⟩

section Recording

variable {h : Callee ω} {fuel : ℕ}

/-- A call is written down with the values of its arguments and what it returns. -/
lemma triple_call {P Q : Memory (ω × List Call) → Prop}
    {E : String → Memory (ω × List Call) → Prop} {name gap object method : String}
    {args : List Atom} (hQ : ∀ st, P st → ∀ w v, Q (Memory.set
      ⟨st.vars, st.output, w, st.host.2 ++ [⟨method, args.map (Atom.eval st), v⟩]⟩ name v)) :
    Triple P ((Stmt.assign name gap (.invoke object method args)).run h.recording fuel)
      (fun _ => Q) E :=
  triple_assign fun st hst => hQ st hst _ _

lemma eval_atom_erase (st : Memory (ω × List Call)) (a : Atom) : a.eval st.erase = a.eval st := by
  cases a <;> rfl

lemma eval_cond_erase (st : Memory (ω × List Call)) (c : Cond) : c.eval st.erase = c.eval st := by
  induction c with
  | eq a b => simp only [Cond.eval, eval_atom_erase]
  | ge a b => simp only [Cond.eval, eval_atom_erase]
  | or c d ihc ihd => simp only [Cond.eval, ihc, ihd]

lemma evalQuoted_erase (st : Memory (ω × List Call)) (segments : List Segment) :
    evalQuoted st.erase segments = evalQuoted st segments := by
  refine congrArg String.join (List.map_congr_left fun x _ => ?_)
  cases x <;> rfl

lemma eval_expr_erase (st : Memory (ω × List Call)) (e : Expr) :
    e.eval h st.erase = ((e.eval h.recording st).1, (e.eval h.recording st).2.1) := by
  cases e with
  | atom a => exact congrArg (·, st.host.1) (eval_atom_erase st a)
  | quoted segments => exact congrArg (Value.str ·, st.host.1) (evalQuoted_erase st segments)
  | newObject progId => rfl
  | invoke object method args =>
      have hargs : args.map (Atom.eval st.erase) = args.map (Atom.eval st) :=
        List.map_congr_left fun a _ => eval_atom_erase st a
      simp only [Expr.eval, hargs]
      rfl

/-- A program does the same with and without the record of its calls. -/
theorem run_recording (s : Stmt) :
    Program.Refines (fun _ => True) Memory.erase (s.run h.recording fuel) (s.run h fuel)
      (fun _ => True) := by
  have hend {m : Program (Memory (ω × List Call)) String Unit} {n : Program (Memory ω) String Unit}
      (hmn : ∀ st, (m st).map (fun r => (r.1, r.2.erase)) = n st.erase) :
      Program.Refines (fun _ => True) Memory.erase m n (fun _ => True) :=
    fun st _ => ⟨hmn st, fun _ _ _ => trivial⟩
  induction s with
  | setup text => exact hend fun st => rfl
  | blank => exact hend fun st => rfl
  | assign name gap e =>
      refine hend fun st => ?_
      simp only [Stmt.run, eval_expr_erase]
      rfl
  | addAssign name a =>
      refine hend fun st => ?_
      simp only [Stmt.run, eval_atom_erase]
      rfl
  | sleep a =>
      refine hend fun st => ?_
      simp only [Stmt.run, eval_atom_erase]
      rfl
  | output name => exact hend fun st => rfl
  | throw segments =>
      refine hend fun st => ?_
      simp only [Stmt.run, evalQuoted_erase]
      rfl
  | seq s t hs ht => exact hs.bind fun _ _ => ht
  | ifElse c s t hs ht =>
      refine hend fun st => ?_
      rw [run_ifElse, run_ifElse, eval_cond_erase]
      cases c.eval st with
      | true => exact (hs st trivial).1
      | false => exact (ht st trivial).1
  | doUntil s c comment hs =>
      suffices hloop : ∀ n, Program.Refines (fun _ => True) Memory.erase
          (loop (s.run h.recording fuel) (Cond.eval · c) n)
          (loop (s.run h fuel) (Cond.eval · c) n) (fun _ => True) from hloop fuel
      intro n
      induction n with
      | zero => exact hend fun st => rfl
      | succ n ih =>
          refine hs.bind fun _ _ => hend fun st => ?_
          simp only [eval_cond_erase]
          by_cases hc : c.eval st = true
          · rw [if_pos hc, if_pos hc]
            rfl
          · rw [if_neg hc, if_neg hc]
            exact (ih st trivial).1

/-- Run from `start`, the program ends with this outcome and this output, and has made
these calls. -/
def Stmt.EndsWith (s : Stmt) (h : Callee ω) (start : ω) (outcome : Except String Unit)
    (output : List Value) (calls : List Call) : Prop :=
  ∃ fuel st, s.run h.recording fuel (Memory.init (start, [])) = some (outcome, st) ∧
    st.output = output ∧ st.host.2 = calls

/-- A program that ends has made some calls. -/
lemma exists_endsWith {s : Stmt} {start : ω} {outcome : Except String Unit} {st : Memory ω}
    (hrun : s.run h fuel (Memory.init start) = some (outcome, st)) :
    ∃ calls, s.EndsWith h start outcome st.output calls := by
  have hrecording : Program.Refines (fun _ => True) Memory.erase (s.run h.recording fuel)
      (s.run h fuel) fun _ => True := run_recording s
  have herase := (hrecording (Memory.init (start, [])) trivial).1
  rw [show (Memory.init (start, ([] : List Call))).erase = Memory.init start from rfl, hrun,
    Option.map_eq_some_iff] at herase
  obtain ⟨⟨outcome', st'⟩, hrecorded, heq⟩ := herase
  cases heq
  exact ⟨st'.host.2, fuel, st', hrecorded, rfl, rfl⟩

/-- What a program ends with satisfies its postconditions. -/
lemma Stmt.EndsWith.post {s : Stmt} {start : ω} {outcome : Except String Unit}
    {output : List Value} {calls : List Call} (hends : s.EndsWith h start outcome output calls)
    {Q : List Value → List Call → Prop} {E : String → List Call → Prop}
    (htriple : ∀ fuel, Triple (· = Memory.init (start, [])) (s.run h.recording fuel)
      (fun _ st => Q st.output st.host.2) (fun text st => E text st.host.2)) :
    (outcome = .ok () → Q output calls) ∧ ∀ text, outcome = .error text → E text calls := by
  obtain ⟨fuel, st, hrun, rfl, rfl⟩ := hends
  obtain ⟨hvalue, herror⟩ := htriple fuel _ rfl
  exact ⟨fun hok => hvalue () st (hok ▸ hrun), fun text htext => herror text st (htext ▸ hrun)⟩

end Recording

end Shell
