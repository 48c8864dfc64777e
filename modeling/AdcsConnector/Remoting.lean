/-
`remoting/winrm_remoting.py`: a session with the WinRM service of a host.

* `Response`, `decode`, `checkResult`: what a command answers, and the checks
  made on it;
* `Host`: how the host behaves, call by call, and whether the calls are logged;
* `Session`: the operations of a session over the `Wire`, which counts the
  remote shells that are open and records the scripts run;
* `returns_runPs`: a script returns the host's answer when it succeeds.
-/
import AdcsConnector.Models
import AdcsConnector.Library.Program

namespace AdcsConnector

open Program

/-- `winrm.Response`. -/
structure Response where
  stdOut : ByteArray
  stdErr : ByteArray
  statusCode : ℤ

/-- `bytes.decode("utf-8")`. -/
def decode (bytes : ByteArray) : Except PyError String :=
  match String.fromUTF8? bytes with
  | some s => .ok s
  | none => .error .unicodeDecodeError

lemma decode_toUTF8 (s : String) : decode s.toUTF8 = .ok s := by
  have h : String.fromUTF8? s.toUTF8 = some s := dif_pos s.isValidUTF8
  rw [decode, h]

/-- `check_result`. -/
def checkResult (result : Response) : Except PyError Unit :=
  if result.statusCode ≠ 0 then
    match decode result.stdErr with
    | .error e => .error e
    | .ok stdErr => .error (.winRMExecution result.statusCode stdErr)
  else .ok ()

/-- The scripts run and the shells open on a host. -/
structure Wire where
  sent : List String
  openShells : ℕ

/-- How a host answers, or which transport error is raised instead; an answer
may depend on everything that has been done before. With `debug` the connector's
log has the level `DEBUG`. -/
structure Host where
  debug : Bool
  openShell : Wire → Except PyError Unit
  powershell : Wire → String → Except PyError Response
  closeShell : Wire → Except PyError Unit

/-- What a service does on a session. -/
abbrev Session := Program Wire PyError

/-- `WinRmRemoting.connect`. -/
def connect (host : Host) : Session Unit := fun w =>
  match host.openShell w with
  | .error e => some (.error e, w)
  | .ok () => some (.ok (), { w with openShells := w.openShells + 1 })

/-- `WinRmRemoting.disconnect`. -/
def disconnect (host : Host) : Session Unit := fun w =>
  match host.closeShell w with
  | .error e => some (.error e, w)
  | .ok () => some (.ok (), { w with openShells := w.openShells - 1 })

/-- The command run, its output fetched and its resources released. -/
def exchange (host : Host) (script : String) : Session Response := fun w =>
  some (host.powershell w script, { w with sent := w.sent ++ [script] })

/-- What `run` logs of a result when the level is `DEBUG`. -/
def logResult (debug : Bool) (result : Response) : Except PyError Unit :=
  if debug then
    (fun _ => ()) <$> decode (if result.statusCode ≠ 0 then result.stdErr else result.stdOut)
  else .ok ()

/-- `WinRmRemoting.run_ps`. -/
def runPs (host : Host) (script : String) : Session Response := do
  let result ← exchange host script
  lift (logResult host.debug result)
  lift (checkResult result)
  return result

/-- The result of a script that `run_ps` returns: its status is 0, and its output can
be logged. -/
structure Host.Accepts (host : Host) (result : Response) : Prop where
  statusCode : result.statusCode = 0
  logged : host.debug = true → ∃ s, decode result.stdOut = .ok s

/-- A result is checked for its status. -/
lemma checkResult_eq_ok_iff {result : Response} :
    checkResult result = .ok () ↔ result.statusCode = 0 := by
  rw [checkResult]
  split_ifs with hstatus
  · cases decode result.stdErr <;> simp [hstatus]
  · simpa using hstatus

/-- A result is logged, and its status checked. -/
lemma accepts_iff {host : Host} {result : Response} :
    host.Accepts result ↔ logResult host.debug result = .ok () ∧ checkResult result = .ok () := by
  rw [checkResult_eq_ok_iff]
  constructor
  · rintro ⟨hstatus, hlogged⟩
    refine ⟨?_, hstatus⟩
    rw [logResult, if_neg (not_not.mpr hstatus)]
    split_ifs with hdebug
    · obtain ⟨s, hs⟩ := hlogged hdebug
      rw [hs]
      rfl
    · rfl
  · rintro ⟨hlog, hstatus⟩
    refine ⟨hstatus, fun hdebug => ?_⟩
    rw [logResult, if_pos hdebug, if_neg (not_not.mpr hstatus)] at hlog
    cases hdecode : decode result.stdOut with
    | ok s => exact ⟨s, rfl⟩
    | error e =>
        rw [hdecode] at hlog
        cases hlog

/-- A result that can be decoded is accepted with status 0. -/
lemma Host.Accepts.of_decode (host : Host) {result : Response} {s : String}
    (hdecode : decode result.stdOut = .ok s) (hstatus : result.statusCode = 0) :
    host.Accepts result :=
  ⟨hstatus, fun _ => ⟨s, hdecode⟩⟩

lemma returns_runPs {host : Host} {script : String} {w w' : Wire} {result : Response} :
    Returns (runPs host script) w result w' ↔
      host.powershell w script = .ok result ∧ host.Accepts result ∧
        w' = { w with sent := w.sent ++ [script] } := by
  simp only [runPs, returns_bind, returns_lift, returns_pure, accepts_iff]
  constructor
  · rintro ⟨r, w₁, hx, _, w₂, ⟨hlog, rfl⟩, _, w₃, ⟨hcheck, rfl⟩, rfl, rfl⟩
    have heq := Prod.mk.inj (Option.some.inj hx)
    exact ⟨heq.1, ⟨hlog, hcheck⟩, heq.2.symm⟩
  · rintro ⟨hx, ⟨hlog, hcheck⟩, rfl⟩
    refine ⟨result, _, ?_, (), _, ⟨hlog, rfl⟩, (), _, ⟨hcheck, rfl⟩, rfl, rfl⟩
    rw [Returns, exchange, hx]

/-- A script is sent, whatever comes of it. -/
lemma exists_runPs (host : Host) (script : String) (w : Wire) :
    ∃ r, runPs host script w = some (r, { w with sent := w.sent ++ [script] }) := by
  simp only [runPs, bind, exchange]
  cases host.powershell w script with
  | error e => exact ⟨_, rfl⟩
  | ok result =>
      cases hlog : logResult host.debug result with
      | error e => exact ⟨.error e, by simp [lift, hlog]⟩
      | ok u =>
          cases hcheck : checkResult result with
          | error e => exact ⟨.error e, by simp [lift, hlog, hcheck]⟩
          | ok u' => exact ⟨.ok result, by simp [lift, pure, hlog, hcheck]⟩

/-- A script ends, with a result or an exception. -/
lemma runPs_ne_none (host : Host) (script : String) (w : Wire) :
    runPs host script w ≠ none := by
  obtain ⟨r, hr⟩ := exists_runPs host script w
  rw [hr]
  exact Option.some_ne_none _

lemma connect_ne_none (host : Host) (w : Wire) : connect host w ≠ none := by
  rw [connect]
  split <;> exact Option.some_ne_none _

lemma disconnect_ne_none (host : Host) (w : Wire) : disconnect host w ≠ none := by
  rw [disconnect]
  split <;> exact Option.some_ne_none _

end AdcsConnector
