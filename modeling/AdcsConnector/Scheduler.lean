/-
`services/certificate_cleanup.py`: the thread of a process that runs the sweeps, and
the calls of `start_cleanup_scheduler` that start it, from `wsgi.py`, from `asgi.py`
and from wherever else the process makes them.

* `Call`, `Loop`: where a call and a thread stand between two steps;
* `Step`: one step of one call, under `_lock`, or of one thread;
* `Inv`: the flag, the call that is to start the thread and the threads there are;
* `scheduled_of_runs`: however the calls overlap, at most one thread is started, and
  it runs until its connections cannot be closed.
-/
import AdcsConnector.Store.Process
import AdcsConnector.Library.Runs

namespace AdcsConnector

namespace Scheduler

/-! ### Calls and threads -/

/-- Where a call of `start_cleanup_scheduler` stands. -/
inductive Call where
  /-- not made -/
  | idle
  /-- made; the settings are not read yet -/
  | called
  /-- `_lock` is taken -/
  | locked
  /-- `_started` was false and is set -/
  | marked
  /-- `_lock` is given back; the thread is not started yet -/
  | starting
  /-- returned, or `Thread.start` has raised -/
  | ended

namespace Call

/-- The call has `_lock`. -/
def Locks : Call → Prop
  | locked | marked => True
  | _ => False

/-- The call is to start the thread. -/
def Starts : Call → Prop
  | marked | starting => True
  | _ => False

end Call

/-- Where a thread stands in `_loop`. -/
inductive Loop where
  /-- at the head: `close_old_connections` -/
  | closing
  /-- `run_cleanup_once` -/
  | cleaning
  /-- `finally`: `close_old_connections` -/
  | finishing
  /-- `time.sleep(poll)` -/
  | sleeping
  /-- ended by an exception -/
  | dead
  deriving DecidableEq

/-- The name of a call. -/
abbrev Pid := ℕ

/-- The module variables, the calls, and the threads in the order of their start. -/
structure State where
  started : Bool
  lock : Option Pid
  calls : Pid → Call
  loops : List Loop

namespace State

/-- Before any call. -/
def init : State := ⟨false, none, fun _ => .idle, []⟩

def setCall (s : State) (p : Pid) (x : Call) : State :=
  { s with calls := Function.update s.calls p x }

def setLoop (s : State) (i : ℕ) (x : Loop) : State := { s with loops := s.loops.set i x }

@[simp] lemma setCall_self (s : State) (p : Pid) (x : Call) : (s.setCall p x).calls p = x :=
  Function.update_self ..

@[simp] lemma setCall_of_ne (s : State) {p q : Pid} (h : q ≠ p) (x : Call) :
    (s.setCall p x).calls q = s.calls q := Function.update_of_ne h ..

@[simp] lemma setCall_started (s : State) (p : Pid) (x : Call) :
    (s.setCall p x).started = s.started := rfl

@[simp] lemma setCall_lock (s : State) (p : Pid) (x : Call) :
    (s.setCall p x).lock = s.lock := rfl

@[simp] lemma setCall_loops (s : State) (p : Pid) (x : Call) :
    (s.setCall p x).loops = s.loops := rfl

end State

/-! ### Steps -/

/-- What a call does. -/
inductive CallEvent where
  | called
  | disabled
  | notPositive
  | acquired
  | alreadyStarted
  | marked
  | released
  | threadStarted
  | threadFailed
  deriving DecidableEq

/-- What a thread does. -/
inductive LoopEvent where
  | closed
  | closeFailed
  | cleaned
  | slept (seconds : ℤ)
  deriving DecidableEq

/-- A step of a call, or of the thread at a place. -/
inductive Label where
  | call (p : Pid) (e : CallEvent)
  | loop (i : ℕ) (e : LoopEvent)
  deriving DecidableEq

/-- The settings that the scheduler reads. -/
structure Config extends Settings where
  cleanupEnabled : Bool

/-- The guards of `start_cleanup_scheduler`. -/
def Config.On (cfg : Config) : Prop := cfg.cleanupEnabled = true ∧ 0 < cfg.cleanupIntervalSeconds

/-- `poll`: the seconds that a thread sleeps. -/
def Config.poll (cfg : Config) : ℤ := min cfg.cleanupIntervalSeconds 3600

variable {cfg : Config}

inductive Step (cfg : Config) : State → Label → State → Prop
  | call {s p} (h : s.calls p = .idle ∨ s.calls p = .ended) :
      Step cfg s (.call p .called) (s.setCall p .called)
  | disabled {s p} (h : s.calls p = .called) (hoff : cfg.cleanupEnabled = false) :
      Step cfg s (.call p .disabled) (s.setCall p .ended)
  | notPositive {s p} (h : s.calls p = .called) (hon : cfg.cleanupEnabled = true)
      (hinterval : cfg.cleanupIntervalSeconds ≤ 0) :
      Step cfg s (.call p .notPositive) (s.setCall p .ended)
  | acquire {s p} (h : s.calls p = .called) (hon : cfg.On) (hfree : s.lock = none) :
      Step cfg s (.call p .acquired) { s.setCall p .locked with lock := some p }
  | alreadyStarted {s p} (h : s.calls p = .locked) (hstarted : s.started = true) :
      Step cfg s (.call p .alreadyStarted) { s.setCall p .ended with lock := none }
  | mark {s p} (h : s.calls p = .locked) (hstarted : s.started = false) :
      Step cfg s (.call p .marked) { s.setCall p .marked with started := true }
  | release {s p} (h : s.calls p = .marked) :
      Step cfg s (.call p .released) { s.setCall p .starting with lock := none }
  | start {s p} (h : s.calls p = .starting) :
      Step cfg s (.call p .threadStarted) { s.setCall p .ended with loops := s.loops ++ [.closing] }
  | startFailed {s p} (h : s.calls p = .starting) :
      Step cfg s (.call p .threadFailed) (s.setCall p .ended)
  -- the head of the loop is outside of the `try`
  | close {s i} (h : s.loops[i]? = some .closing) :
      Step cfg s (.loop i .closed) (s.setLoop i .cleaning)
  -- what `run_cleanup_once` returns is not read, and what it raises is logged
  | clean {s i} (h : s.loops[i]? = some .cleaning) :
      Step cfg s (.loop i .cleaned) (s.setLoop i .finishing)
  | finish {s i} (h : s.loops[i]? = some .finishing) :
      Step cfg s (.loop i .closed) (s.setLoop i .sleeping)
  | closeFailed {s i x} (h : s.loops[i]? = some x) (hx : x = .closing ∨ x = .finishing) :
      Step cfg s (.loop i .closeFailed) (s.setLoop i .dead)
  | sleep {s i} (h : s.loops[i]? = some .sleeping) :
      Step cfg s (.loop i (.slept cfg.poll)) (s.setLoop i .closing)

/-! ### The invariant -/

/-- The label of a thread that is started, or of one that could not be. -/
def Label.starts : Label → Bool
  | .call _ .threadStarted => true
  | _ => false

def Label.fails : Label → Bool
  | .call _ .threadFailed => true
  | _ => false

/-- How often a call has come to start a thread. -/
def attempts (tr : List Label) : ℕ := tr.countP Label.starts + tr.countP Label.fails

lemma attempts_append (tr : List Label) (l : Label) :
    attempts (tr ++ [l]) =
      attempts tr + (if l.starts then 1 else 0) + if l.fails then 1 else 0 := by
  simp only [attempts, List.countP_append, List.countP_singleton]
  omega

/-- The call has come past the guards. -/
def Passed (tr : List Label) : Prop :=
  ∃ p, .call p .alreadyStarted ∈ tr ∨ .call p .released ∈ tr

/-- Until `_started` is set nobody has come to start a thread; afterwards exactly one
call is to start it, or has done so. -/
structure Inv (cfg : Config) (tr : List Label) (s : State) : Prop where
  lock : ∀ p, (s.calls p).Locks ↔ s.lock = some p
  on : (∃ p, (s.calls p).Locks) ∨ s.started = true → cfg.On
  before : s.started = false → attempts tr = 0 ∧ ∀ p, ¬ (s.calls p).Starts
  after : s.started = true →
    (attempts tr = 0 ∧ ∃ p, (s.calls p).Starts ∧ ∀ q, (s.calls q).Starts → q = p) ∨
      (attempts tr = 1 ∧ ∀ p, ¬ (s.calls p).Starts)
  loops : s.loops.length = tr.countP Label.starts
  passed : Passed tr → s.started = true

section Step

variable {tr : List Label} {s s' : State} {l : Label}

/-- A step of a call concerns this call only. -/
lemma Step.calls_of_ne {p q : Pid} {e : CallEvent} (hst : Step cfg s (.call p e) s') (hq : q ≠ p) :
    s'.calls q = s.calls q := by
  cases hst <;> exact State.setCall_of_ne s hq _

/-- A step of a thread concerns this thread only. -/
lemma Step.eq_setLoop {i : ℕ} {e : LoopEvent} (hst : Step cfg s (.loop i e) s') :
    ∃ x y, s.loops[i]? = some x ∧ s' = s.setLoop i y ∧ (y = .dead ↔ e = .closeFailed) ∧
      x ≠ .dead := by
  cases hst with
  | close h | clean h | finish h | sleep h => exact ⟨_, _, h, rfl, by simp, by simp⟩
  | closeFailed h hx => exact ⟨_, _, h, rfl, by simp, by rcases hx with rfl | rfl <;> simp⟩

/-- What a step of a call does to the call, to the lock and to the flag. -/
lemma Step.call_cases {p : Pid} {e : CallEvent} (hst : Step cfg s (.call p e) s') :
    (¬ (s.calls p).Locks ∧ ¬ (s'.calls p).Locks ∧ s'.lock = s.lock) ∨
      (s.lock = none ∧ (s'.calls p).Locks ∧ s'.lock = some p ∧ cfg.On) ∨
      ((s.calls p).Locks ∧ (s'.calls p).Locks ∧ s'.lock = s.lock) ∨
      ((s.calls p).Locks ∧ ¬ (s'.calls p).Locks ∧ s'.lock = none) := by
  cases hst with
  | call h => exact .inl (by rcases h with h | h <;> simp [h, Call.Locks])
  | disabled h | notPositive h | start h | startFailed h => exact .inl (by simp [h, Call.Locks])
  | acquire h hon hfree => exact .inr (.inl ⟨hfree, by simp [Call.Locks], rfl, hon⟩)
  | mark h => exact .inr (.inr (.inl (by simp [h, Call.Locks])))
  | alreadyStarted h | release h => exact .inr (.inr (.inr (by simp [h, Call.Locks])))

/-- What a step of a call does to the flag, and who is to start a thread before and
after it. -/
inductive Turn (s s' : State) (p : Pid) (e : CallEvent) : Prop
  /-- nothing: the call is not to start a thread -/
  | quiet (hbefore : ¬ (s.calls p).Starts) (hafter : ¬ (s'.calls p).Starts)
      (hstarted : s'.started = s.started) (hloops : s'.loops = s.loops)
      (hstarts : (Label.call p e).starts = false) (hfails : (Label.call p e).fails = false)
      (hpassed : e = .alreadyStarted → s.started = true) (hnot : e ≠ .released)
  /-- the flag is set -/
  | set (hlocks : (s.calls p).Locks) (hbefore : s.started = false) (hstarted : s'.started = true)
      (hafter : (s'.calls p).Starts) (hloops : s'.loops = s.loops) (he : e = .marked)
  /-- the lock is given back -/
  | keep (hbefore : (s.calls p).Starts) (hafter : (s'.calls p).Starts)
      (hstarted : s'.started = s.started) (hloops : s'.loops = s.loops) (he : e = .released)
  /-- the thread is started, or it could not be -/
  | attempt (hbefore : (s.calls p).Starts) (hafter : ¬ (s'.calls p).Starts)
      (hstarted : s'.started = s.started)
      (he : e = .threadStarted ∧ s'.loops = s.loops ++ [.closing] ∨
        e = .threadFailed ∧ s'.loops = s.loops)

lemma Step.turn {p : Pid} {e : CallEvent} (hst : Step cfg s (.call p e) s') :
    Turn s s' p e := by
  have hquiet {x : Call} {e : CallEvent} (hx : ¬ x.Starts) (h : ¬ (s.calls p).Starts)
      {t : State} (ht : t.calls p = x) (hstarted : t.started = s.started)
      (hloops : t.loops = s.loops) (hstarts : (Label.call p e).starts = false)
      (hfails : (Label.call p e).fails = false) (hpassed : e = .alreadyStarted → s.started = true)
      (hnot : e ≠ .released) : Turn s t p e :=
    .quiet h (ht ▸ hx) hstarted hloops hstarts hfails hpassed hnot
  cases hst with
  | call h =>
      refine hquiet (x := .called) (by simp [Call.Starts]) ?_ (State.setCall_self ..) rfl rfl rfl
        rfl (by simp) (by simp)
      rcases h with h | h <;> simp [h, Call.Starts]
  | disabled h | notPositive h =>
      exact hquiet (x := .ended) (by simp [Call.Starts]) (by simp [h, Call.Starts])
        (State.setCall_self ..) rfl rfl rfl rfl (by simp) (by simp)
  | acquire h =>
      exact hquiet (x := .locked) (by simp [Call.Starts]) (by simp [h, Call.Starts])
        (State.setCall_self ..) rfl rfl rfl rfl (by simp) (by simp)
  | alreadyStarted h hstarted =>
      exact hquiet (x := .ended) (by simp [Call.Starts]) (by simp [h, Call.Starts])
        (State.setCall_self ..) rfl rfl rfl rfl (fun _ => hstarted) (by simp)
  | mark h hstarted =>
      exact .set (by simp [h, Call.Locks]) hstarted rfl (by simp [Call.Starts]) rfl rfl
  | release h => exact .keep (by simp [h, Call.Starts]) (by simp [Call.Starts]) rfl rfl rfl
  | start h =>
      exact .attempt (by simp [h, Call.Starts]) (by simp [Call.Starts]) rfl (.inl ⟨rfl, rfl⟩)
  | startFailed h =>
      exact .attempt (by simp [h, Call.Starts]) (by simp [Call.Starts]) rfl (.inr ⟨rfl, rfl⟩)

/-- The lock has one holder. -/
lemma Inv.lock_step {p : Pid} {e : CallEvent} (hinv : Inv cfg tr s)
    (hst : Step cfg s (.call p e) s') (q : Pid) : (s'.calls q).Locks ↔ s'.lock = some q := by
  have hp := hinv.lock p
  rcases eq_or_ne q p with rfl | hq
  · rcases hst.call_cases with ⟨hx, hx', hlock⟩ | ⟨-, hx', hlock, -⟩ | ⟨hx, hx', hlock⟩ |
      ⟨-, hx', hlock⟩
    · rw [hlock, ← hp]
      exact iff_of_false hx' hx
    · exact iff_of_true hx' hlock
    · exact iff_of_true hx' (hlock.trans (hp.mp hx))
    · rw [hlock]
      exact iff_of_false hx' (by simp)
  · rw [hst.calls_of_ne hq, hinv.lock q]
    rcases hst.call_cases with ⟨-, -, hlock⟩ | ⟨hfree, -, hlock, -⟩ | ⟨-, -, hlock⟩ |
      ⟨hx, -, hlock⟩
    · rw [hlock]
    · rw [hlock, hfree]
      simp [hq.symm]
    · rw [hlock]
    · rw [hlock, hp.mp hx]
      simp [hq.symm]

/-- A step of a call keeps the invariant. -/
lemma Inv.call_step {p : Pid} {e : CallEvent} (hinv : Inv cfg tr s)
    (hst : Step cfg s (.call p e) s') : Inv cfg (tr ++ [.call p e]) s' where
  lock := hinv.lock_step hst
  on := by
    rintro (⟨q, hq⟩ | hstarted)
    · rcases eq_or_ne q p with rfl | hne
      · rcases hst.call_cases with ⟨-, hx', -⟩ | ⟨-, -, -, hon⟩ | ⟨hx, -, -⟩ | ⟨-, hx', -⟩
        · exact absurd hq hx'
        -- the settings are looked at before the lock is taken
        · exact hon
        · exact hinv.on (.inl ⟨q, hx⟩)
        · exact absurd hq hx'
      · exact hinv.on (.inl ⟨q, hst.calls_of_ne hne ▸ hq⟩)
    · cases hst.turn with
      | set hlocks => exact hinv.on (.inl ⟨p, hlocks⟩)
      | quiet _ _ hsame | keep _ _ hsame | attempt _ _ hsame =>
          exact hinv.on (.inr (hsame ▸ hstarted))
  before := by
    intro hfalse
    cases hst.turn with
    | quiet hbefore hafter hsame hloops hstarts hfails =>
        obtain ⟨hnone, hidle⟩ := hinv.before (hsame ▸ hfalse)
        -- no attempt is added, and no call comes to start a thread
        refine ⟨by simp [attempts_append, hstarts, hfails, hnone], fun q => ?_⟩
        rcases eq_or_ne q p with rfl | hne
        · exact hafter
        · exact hst.calls_of_ne hne ▸ hidle q
    | set hlocks hbefore hstarted =>
        rw [hfalse] at hstarted
        cases hstarted
    | keep hbefore hafter hsame | attempt hbefore hafter hsame =>
        -- before the flag is set no call is to start a thread
        exact absurd hbefore ((hinv.before (hsame ▸ hfalse)).2 p)
  after := by
    intro htrue
    cases hst.turn with
    | quiet hbefore hafter hsame hloops hstarts hfails =>
        rw [attempts_append, hstarts, hfails]
        rcases hinv.after (hsame ▸ htrue) with ⟨hnone, q, hq, hunique⟩ | ⟨hone, hidle⟩
        · -- the call that is to start the thread is another one
          have hne : q ≠ p := fun heq => hbefore (heq ▸ hq)
          refine .inl ⟨hnone, q, (hst.calls_of_ne hne).symm ▸ hq, fun r hr => ?_⟩
          rcases eq_or_ne r p with rfl | hr'
          · exact absurd hr hafter
          · exact hunique r (hst.calls_of_ne hr' ▸ hr)
        · refine .inr ⟨hone, fun r => ?_⟩
          rcases eq_or_ne r p with rfl | hr'
          · exact hafter
          · exact hst.calls_of_ne hr' ▸ hidle r
    | set hlocks hbefore hstarted hafter hloops he =>
        -- the call that sets the flag is the one to start the thread
        obtain ⟨hnone, hidle⟩ := hinv.before hbefore
        subst he
        refine .inl ⟨by simp [attempts_append, Label.starts, Label.fails, hnone], p, hafter,
          fun r hr => ?_⟩
        by_contra hr'
        exact hidle r (hst.calls_of_ne hr' ▸ hr)
    | keep hbefore hafter hsame hloops he =>
        subst he
        rcases hinv.after (hsame ▸ htrue) with ⟨hnone, q, hq, hunique⟩ | ⟨hone, hidle⟩
        · obtain rfl := hunique p hbefore
          refine .inl ⟨by simp [attempts_append, Label.starts, Label.fails, hnone], _, hafter,
            fun r hr => ?_⟩
          by_contra hr'
          exact hr' (hunique r (hst.calls_of_ne hr' ▸ hr))
        · exact absurd hbefore (hidle p)
    | attempt hbefore hafter hsame he =>
        -- the one call that was to start the thread has tried to
        rcases hinv.after (hsame ▸ htrue) with ⟨hnone, q, hq, hunique⟩ | ⟨hone, hidle⟩
        · obtain rfl := hunique p hbefore
          refine .inr ⟨?_, fun r hr => ?_⟩
          · rcases he with ⟨rfl, -⟩ | ⟨rfl, -⟩ <;>
              simp [attempts_append, Label.starts, Label.fails, hnone]
          · rcases eq_or_ne r p with rfl | hr'
            · exact hafter hr
            · exact hr' (hunique r (hst.calls_of_ne hr' ▸ hr))
        · exact absurd hbefore (hidle p)
  loops := by
    rw [List.countP_append, List.countP_singleton]
    cases hst.turn with
    | quiet _ _ _ hloops hstarts => rw [hloops, hinv.loops, hstarts]; rfl
    | set _ _ _ _ hloops he => rw [hloops, hinv.loops, he]; rfl
    | keep _ _ _ hloops he => rw [hloops, hinv.loops, he]; rfl
    | attempt _ _ _ he =>
        -- there are as many threads as attempts that succeeded
        rcases he with ⟨rfl, hloops⟩ | ⟨rfl, hloops⟩
        · rw [hloops, List.length_append, hinv.loops]
          rfl
        · rw [hloops, hinv.loops]
          rfl
  passed := by
    rintro ⟨q, hq⟩
    -- a call passes the flag by finding it set, or by setting it
    have hmem : (.call q .alreadyStarted ∈ tr ∨ .call q .released ∈ tr) ∨
        e = .alreadyStarted ∨ e = .released := by
      simp only [List.mem_append, List.mem_singleton, Label.call.injEq] at hq
      tauto
    have hkept : Passed tr → s'.started = true := fun h => by
      cases hst.turn with
      | set _ _ hstarted => exact hstarted
      | quiet _ _ hsame | keep _ _ hsame | attempt _ _ hsame => exact hsame.trans (hinv.passed h)
    rcases hmem with hbefore | he
    · exact hkept ⟨q, hbefore⟩
    · cases hst.turn with
      | set _ _ hstarted => exact hstarted
      | quiet _ _ hsame _ _ _ hpassed hnot => exact hsame.trans (hpassed (he.resolve_right hnot))
      | keep hbefore _ hsame | attempt hbefore _ hsame =>
          rw [hsame]
          by_contra hfalse
          exact (hinv.before (by simpa using hfalse)).2 p hbefore

/-- A step of a thread keeps the invariant. -/
lemma Inv.loop_step {i : ℕ} {e : LoopEvent} (hinv : Inv cfg tr s)
    (hst : Step cfg s (.loop i e) s') : Inv cfg (tr ++ [.loop i e]) s' := by
  obtain ⟨x, y, -, rfl, -⟩ := hst.eq_setLoop
  have hattempts : attempts (tr ++ [.loop i e]) = attempts tr := by
    simp [attempts_append, Label.starts, Label.fails]
  refine ⟨hinv.lock, hinv.on, fun h => hattempts ▸ hinv.before h,
    fun h => hattempts ▸ hinv.after h, ?_, ?_⟩
  · rw [State.setLoop, List.length_set, List.countP_append, hinv.loops]
    rfl
  · rintro ⟨q, hq⟩
    exact hinv.passed ⟨q, by simpa using hq⟩

lemma inv_of_runs (hr : Run (Step cfg) .init tr s) : Inv cfg tr s := by
  induction hr with
  | refl =>
      refine ⟨fun p => ?_, fun h => ?_, fun _ => ⟨rfl, fun p => ?_⟩, fun h => ?_, rfl, fun h => ?_⟩
      · simp [State.init, Call.Locks]
      · simp [State.init, Call.Locks] at h
      · simp [State.init, Call.Starts]
      · cases h
      · simp [Passed] at h
  | @tail tr l s s' _ hst ih =>
      cases l with
      | call p e => exact ih.call_step hst
      | loop i e => exact ih.loop_step hst

/-- The threads there are, and those that have not been able to close their connections. -/
structure Threads (tr : List Label) (s : State) : Prop where
  dead_iff : ∀ i x, s.loops[i]? = some x → (x = .dead ↔ .loop i .closeFailed ∈ tr)
  lt_length : ∀ i, .loop i .closeFailed ∈ tr → i < s.loops.length

lemma Step.loops_cases {p : Pid} {e : CallEvent} (hst : Step cfg s (.call p e) s') :
    s'.loops = s.loops ∨ s'.loops = s.loops ++ [.closing] := by
  cases hst.turn with
  | quiet _ _ _ hloops | set _ _ _ _ hloops | keep _ _ _ hloops => exact .inl hloops
  | attempt _ _ _ he => exact he.symm.imp And.right And.right

lemma Threads.step (h : Threads tr s) (hst : Step cfg s l s') : Threads (tr ++ [l]) s' := by
  cases l with
  | call p e =>
      have hmem : ∀ i, .loop i .closeFailed ∈ tr ++ [.call p e] ↔ .loop i .closeFailed ∈ tr := by
        simp
      rcases hst.loops_cases with hloops | hloops
      · exact ⟨fun i x hx => (h.dead_iff i x (hloops ▸ hx)).trans (hmem i).symm,
          fun i hi => hloops ▸ h.lt_length i ((hmem i).mp hi)⟩
      · refine ⟨fun i x hx => ?_, fun i hi => ?_⟩
        · rw [hmem]
          rw [hloops, List.getElem?_append] at hx
          split_ifs at hx with hlt
          · exact h.dead_iff i x hx
          · -- the new thread has not failed
            obtain rfl : x = .closing := by
              obtain ⟨_, hx⟩ := List.getElem?_eq_some_iff.mp hx
              simpa using hx.symm
            exact iff_of_false (by simp) fun hi => hlt (h.lt_length i hi)
        · rw [hloops, List.length_append]
          exact Nat.lt_add_right _ (h.lt_length i ((hmem i).mp hi))
  | loop i e =>
      obtain ⟨x, y, hx, rfl, hdead, hne⟩ := hst.eq_setLoop
      have hlt : i < s.loops.length := (List.getElem?_eq_some_iff.mp hx).1
      refine ⟨fun j z hz => ?_, fun j hj => ?_⟩
      · rw [State.setLoop, List.getElem?_set] at hz
        split_ifs at hz with hij
        · obtain rfl := hij
          cases hz
          have hnot : .loop i .closeFailed ∉ tr := fun hmem =>
            hne ((h.dead_iff i x hx).mpr hmem)
          simp [hdead, hnot, eq_comm]
        · rw [h.dead_iff j z hz]
          simp [Ne.symm hij]
      · rw [State.setLoop, List.length_set]
        rcases List.mem_append.mp hj with hj | hj
        · exact h.lt_length j hj
        · simp only [List.mem_singleton, Label.loop.injEq] at hj
          exact hj.1 ▸ hlt

lemma threads_of_runs (hr : Run (Step cfg) .init tr s) : Threads tr s := by
  induction hr with
  | refl => exact ⟨fun i x hx => by simp [State.init] at hx, fun i hi => by simp at hi⟩
  | tail _ hst ih => exact ih.step hst

/-- A thread sleeps for the poll interval. -/
lemma Step.slept_eq {i : ℕ} {n : ℤ} (hst : Step cfg s (.loop i (.slept n)) s') :
    n = cfg.poll ∧ s.loops ≠ [] := by
  cases hst with
  | sleep h => exact ⟨rfl, fun hnil => by simp [hnil] at h⟩

end Step

/-! ### Whole runs -/

/-- What holds of the threads of a process in every state. -/
structure Scheduled (cfg : Config) (tr : List Label) (s : State) : Prop where
  atMostOne : s.loops.length ≤ 1
  off : ¬ cfg.On → s.loops = []
  one : Passed tr → (∀ p, ¬ (s.calls p).Starts) → (∀ p, .call p .threadFailed ∉ tr) →
    s.loops.length = 1
  lost : (∃ p, .call p .threadFailed ∈ tr) → s.loops = []
  dead_iff : ∀ i x, s.loops[i]? = some x → (x = .dead ↔ .loop i .closeFailed ∈ tr)
  slept : ∀ i n, .loop i (.slept n) ∈ tr → 0 < n ∧ n ≤ cfg.cleanupIntervalSeconds ∧ n ≤ 3600

lemma Inv.on_of_loops {tr : List Label} {s : State} (hinv : Inv cfg tr s) (h : s.loops ≠ []) :
    cfg.On := by
  refine hinv.on (.inr ?_)
  by_contra hfalse
  have hattempts := (hinv.before (by simpa using hfalse)).1
  have hlength := List.length_pos_iff.mpr h
  rw [hinv.loops] at hlength
  rw [attempts] at hattempts
  omega

/-- **One thread.** However the calls of `start_cleanup_scheduler` overlap: there is at
most one thread, and none with the settings off; when a call has come past the guards and
none is about to start the thread, there is one, unless it could not be started, and then
there is none for good; the thread ends only when its connections cannot be closed,
whatever the sweeps raise; and it sleeps for a positive time, of an interval at most. -/
theorem scheduled_of_runs {tr : List Label} {s : State} (hr : Run (Step cfg) .init tr s) :
    Scheduled cfg tr s := by
  have hinv := inv_of_runs hr
  have hattempts : attempts tr ≤ 1 := by
    cases hstarted : s.started with
    | false => exact (hinv.before hstarted).1.trans_le zero_le_one
    | true => rcases hinv.after hstarted with ⟨h, -⟩ | ⟨h, -⟩ <;> omega
  have hsum : s.loops.length + tr.countP Label.fails = attempts tr := by rw [hinv.loops, attempts]
  have hfails : (∃ p, .call p .threadFailed ∈ tr) ↔ 0 < tr.countP Label.fails := by
    rw [List.countP_pos_iff]
    constructor
    · rintro ⟨p, hp⟩
      exact ⟨_, hp, rfl⟩
    · rintro ⟨l, hl, hfail⟩
      unfold Label.fails at hfail
      split at hfail
      · exact ⟨_, hl⟩
      · cases hfail
  refine ⟨by omega, fun hoff => ?_, fun hpassed hidle hnone => ?_, fun hfailed => ?_,
    (threads_of_runs hr).dead_iff, fun i n hn => ?_⟩
  · by_contra hne
    exact hoff (hinv.on_of_loops hne)
  · rcases hinv.after (hinv.passed hpassed) with ⟨-, p, hp, -⟩ | ⟨hone, -⟩
    · exact absurd hp (hidle p)
    · have hzero : ¬ 0 < tr.countP Label.fails := fun hpos =>
        (hfails.mpr hpos).elim hnone
      omega
  · have hpos := hfails.mp hfailed
    exact List.length_eq_zero_iff.mp (by omega)
  · obtain ⟨_, _, m, m', -, hm, hst, -⟩ := hr.exists_step hn
    obtain ⟨rfl, hne⟩ := hst.slept_eq
    have hon := (inv_of_runs hm).on_of_loops hne
    exact ⟨lt_min hon.2 (by norm_num), min_le_left .., min_le_right ..⟩

/-- The default settings. -/
def defaultConfig : Config := ⟨⟨86400, 1000⟩, true⟩

/-- Two calls, of which the second waits for the lock of the first. -/
def overlappingCalls : List Label :=
  [.call 0 .called, .call 1 .called, .call 0 .acquired, .call 0 .marked, .call 0 .released,
    .call 1 .acquired, .call 1 .alreadyStarted, .call 0 .threadStarted]

/-- There is one thread after the two calls. -/
theorem scheduled_sample :
    ∃ s, Scheduled defaultConfig overlappingCalls s ∧ s.loops.length = 1 := by
  have hon : defaultConfig.On := ⟨rfl, by decide⟩
  have hr : Run (Step defaultConfig) .init [] .init := .refl
  have hr := hr.tail (.call (p := 0) (.inl rfl))
  have hr := hr.tail (.call (p := 1) (.inl rfl))
  have hr := hr.tail (.acquire (p := 0) rfl hon rfl)
  have hr := hr.tail (.mark (p := 0) rfl rfl)
  have hr := hr.tail (.release (p := 0) rfl)
  have hr := hr.tail (.acquire (p := 1) rfl hon rfl)
  have hr := hr.tail (.alreadyStarted (p := 1) rfl rfl)
  have hr := hr.tail (.start (p := 0) rfl)
  exact ⟨_, scheduled_of_runs hr, rfl⟩

end Scheduler

end AdcsConnector
