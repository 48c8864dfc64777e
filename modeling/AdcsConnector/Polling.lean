/-
The script that issues a certificate, run.

* `IssueTexts`: the texts that the script takes from a request, with no quote, dollar
  or backtick in them, so that every literal denotes its text (`IssueTexts.denoted`);
* `issueProgram`: the script as a program; `issueProgram_print`: its text is what
  `submit_certificate_request_script` builds;
* `requestHost`: the request object of the certification authority, which
  answers `Submit` and every poll with a disposition;
* `PollingHonoured`: the script ends, with the certificate when it is issued in
  time and with the timeout error otherwise, and does not give up too early;
* `polling_honoured_iff`: it does so exactly when the certificate is issued at
  the first poll or the timeout is one polling interval.
-/
import AdcsConnector.Interpolation
import AdcsConnector.Library.Shell

namespace AdcsConnector

open Shell Quoting

/-! ### The script as a program -/

/-- The texts that the script takes from a request. With a special character in one of
them the script is another program. -/
structure IssueTexts where
  request : String
  ca : AuthorityData
  template : TemplateData
  plain : ∀ text ∈ [ca.configString, template.name, request], Plain text.toList

/-- The call of the builder. -/
def IssueTexts.input (texts : IssueTexts) (pollingInterval timeout : ℤ) : ScriptInput :=
  .submit texts.request texts.ca texts.template pollingInterval timeout

/-- The literals of the script denote the texts. -/
lemma IssueTexts.denoted (texts : IssueTexts) (pollingInterval timeout : ℤ) :
    (texts.input pollingInterval timeout).Denoted :=
  (kept_iff_plainValues (template_holes _)).mpr
    ((ScriptInput.plainValues_iff (texts.input pollingInterval timeout)).mpr texts.plain)

/-- The output of the certificate after the submission or a poll. -/
def getCertificate : Stmt :=
  .assign "certB64" " " (.invoke "req" "GetCertificate" [.var "encoding"])

/-- The body of the polling loop. -/
def pollOnce : Stmt :=
  Stmt.block (.sleep (.var "pollMilliseconds"))
    [.addAssign "elapsed" (.var "pollMilliseconds"),
      .assign "disposition" " "
        (.invoke "req" "RetrievePending" [.var "requestId", .var "config"])]

/-- The exit test of the polling loop. -/
def pollExit : Cond :=
  .or (.eq (.var "disposition") (.int 3)) (.ge (.var "elapsed") (.var "timeout"))

/-- The error thrown when the certificate is not issued in time. -/
def timeoutThrow : Stmt :=
  .throw [.text "Timeout waiting for certificate (request ", .var "requestId", .text ")."]

/-- The polling loop, and what follows it. -/
def pollPending : Stmt :=
  Stmt.block (.doUntil pollOnce pollExit "   # 3 = issued")
    [.blank, .ifElse (.eq (.var "disposition") (.int 3)) getCertificate timeoutThrow]

/-- From the submission on. -/
def issueSteps : Stmt :=
  Stmt.block
    (.assign "disposition" " "
      (.invoke "req" "Submit" [.hex 0xff, .var "csr", .var "template", .var "config"]))
    [.assign "requestId" "   " (.invoke "req" "GetRequestId" []),
      .blank,
      .ifElse (.or (.eq (.var "disposition") (.int 0)) (.eq (.var "disposition") (.int 3)))
        getCertificate pollPending,
      .blank,
      .output "certB64"]

/-- `submit_certificate_request_script`, with every text as one literal. -/
def issueProgram (texts : IssueTexts) (pollingInterval timeout : ℤ) : Stmt :=
  Stmt.block (.setup imports)
    [.assign "config" " " (.quoted [.text texts.ca.configString]),
      .assign "template" " " (.quoted [.text "CertificateTemplate:", .text texts.template.name]),
      .assign "encoding" " " (.atom (.hex 1)),
      .assign "pollMilliseconds" " " (.atom (.int pollingInterval)),
      .assign "timeoutMilliseconds" " " (.atom (.int timeout)),
      .blank,
      .assign "csr" " " (.quoted [.text texts.request]),
      .blank,
      .assign "req" " " (.newObject "CertificateAuthority.Request"),
      .blank,
      issueSteps]

/-! ### Its text -/

lemma print_getCertificate (margin : String) :
    getCertificate.print margin = margin ++ "$certB64 = $req.GetCertificate($encoding)\n" := by
  have h : "$" ++ "certB64" ++ " " ++ "= " ++
      Expr.print (.invoke "req" "GetCertificate" [.var "encoding"]) ++ "\n" =
      "$certB64 = $req.GetCertificate($encoding)\n" := by decide +kernel
  rw [← h, getCertificate, Stmt.print, line, String.append_assoc]

lemma print_pollOnce :
    pollOnce.print "        " =
      "        Start-Sleep -Milliseconds $pollMilliseconds\n" ++
      "        $elapsed += $pollMilliseconds\n" ++
      "        $disposition = $req.RetrievePending($requestId, $config)\n" := by
  decide +kernel

lemma print_pollPending :
    pollPending.print "    " =
      "    do \x7b\n" ++
      "        Start-Sleep -Milliseconds $pollMilliseconds\n" ++
      "        $elapsed += $pollMilliseconds\n" ++
      "        $disposition = $req.RetrievePending($requestId, $config)\n" ++
      "    \x7d until ($disposition -eq 3 -or $elapsed -ge $timeout)   # 3 = issued\n\n" ++
      "    if ($disposition -eq 3) \x7b\n" ++
      "        $certB64 = $req.GetCertificate($encoding)\n" ++
      "    \x7d else \x7b\n" ++
      "        throw \"Timeout waiting for certificate (request $requestId).\"\n" ++
      "    \x7d\n" := by
  have hmargin : "    " ++ "    " = "        " := by decide +kernel
  have hdo : line "    " "do \x7b" = "    do \x7b\n" := by decide +kernel
  have huntil : line "    " ("\x7d until (" ++ pollExit.print ++ ")" ++ "   # 3 = issued") =
      "    \x7d until ($disposition -eq 3 -or $elapsed -ge $timeout)   # 3 = issued\n" := by
    decide +kernel
  have hblank : "    \x7d until ($disposition -eq 3 -or $elapsed -ge $timeout)   # 3 = issued\n\n" =
      "    \x7d until ($disposition -eq 3 -or $elapsed -ge $timeout)   # 3 = issued\n" ++
        Stmt.blank.print "    " := by
    decide +kernel
  have hif : line "    " ("if (" ++ Cond.print (.eq (.var "disposition") (.int 3)) ++ ") \x7b") =
      "    if ($disposition -eq 3) \x7b\n" := by decide +kernel
  have hget : "        " ++ "$certB64 = $req.GetCertificate($encoding)\n" =
      "        $certB64 = $req.GetCertificate($encoding)\n" := by decide +kernel
  have helse : line "    " "\x7d else \x7b" = "    \x7d else \x7b\n" := by decide +kernel
  have hthrow : timeoutThrow.print "        " =
      "        throw \"Timeout waiting for certificate (request $requestId).\"\n" := by
    decide +kernel
  have hclose : line "    " "\x7d" = "    \x7d\n" := by decide +kernel
  rw [hblank]
  simp only [pollPending, Stmt.block, print_seq, print_doUntil hmargin,
    print_ifElse hmargin, hdo, huntil, hif, helse, hthrow, hclose, print_pollOnce,
    print_getCertificate, hget]
  simp only [String.append_assoc]

/-- The text from the submission on. -/
lemma print_issueSteps :
    issueSteps.print "" =
      "$disposition = $req.Submit(0xff, $csr, $template, $config)\n" ++
      "$requestId   = $req.GetRequestId()\n\n" ++ submitPoll := by
  have hsubmit : Stmt.print "" (.assign "disposition" " "
      (.invoke "req" "Submit" [.hex 0xff, .var "csr", .var "template", .var "config"])) =
      "$disposition = $req.Submit(0xff, $csr, $template, $config)\n" := by decide +kernel
  have hrequest : Stmt.print "" (.assign "requestId" "   " (.invoke "req" "GetRequestId" [])) =
      "$requestId   = $req.GetRequestId()\n" := by decide +kernel
  have hblank : "$requestId   = $req.GetRequestId()\n\n" =
      "$requestId   = $req.GetRequestId()\n" ++ Stmt.blank.print "" := by decide +kernel
  have hif : line "" ("if (" ++ Cond.print (.or (.eq (.var "disposition") (.int 0))
      (.eq (.var "disposition") (.int 3))) ++ ") \x7b") =
      "if ($disposition -eq 0 -or $disposition -eq 3) \x7b\n" := by decide +kernel
  have hmargin : "" ++ "    " = "    " := by decide +kernel
  have hget : "    " ++ "$certB64 = $req.GetCertificate($encoding)\n" =
      "    $certB64 = $req.GetCertificate($encoding)\n" := by decide +kernel
  have helse : line "" "\x7d else \x7b" = "\x7d else \x7b\n" := by decide +kernel
  have hclose : "\x7d\n\n" = line "" "\x7d" ++ Stmt.blank.print "" := by decide +kernel
  have houtput : Stmt.print "" (.output "certB64") = "$certB64\n" := by decide +kernel
  unfold submitPoll
  simp only [hblank, hclose, issueSteps, Stmt.block, print_seq,
    print_ifElse hmargin, hsubmit, hrequest, hif, hget, helse, houtput, print_getCertificate,
    print_pollPending]
  simp only [String.append_assoc]

/-- **The program is the script.** -/
theorem issueProgram_print (texts : IssueTexts) (pollingInterval timeout : ℤ) :
    (issueProgram texts pollingInterval timeout).print "" =
      (texts.input pollingInterval timeout).script := by
  have hsetup : Stmt.print "" (.setup imports) = imports ++ "\n" := by
    rw [Stmt.print, line, String.empty_append]
  have hconfig : "\n$config = \"" = "\n" ++ ("$" ++ "config" ++ " " ++ "= ") ++ "\"" := by
    decide +kernel
  have htemplate : "\"\n$template = \"CertificateTemplate:" =
      "\"" ++ "\n" ++ ("$" ++ "template" ++ " " ++ "= ") ++ "\"" ++ "CertificateTemplate:" := by
    decide +kernel
  have hpoll : "\"\n$encoding = 0x1\n$pollMilliseconds = " =
      "\"" ++ "\n" ++ Stmt.print "" (.assign "encoding" " " (.atom (.hex 1))) ++
        ("$" ++ "pollMilliseconds" ++ " " ++ "= ") := by
    decide +kernel
  have htimeout : "\n$timeoutMilliseconds = " =
      "\n" ++ ("$" ++ "timeoutMilliseconds" ++ " " ++ "= ") := by decide +kernel
  have hcsr : "\n\n$csr = \"" =
      "\n" ++ Stmt.blank.print "" ++ ("$" ++ "csr" ++ " " ++ "= ") ++ "\"" := by decide +kernel
  have hreq : "\"\n\n$req = New-Object -ComObject CertificateAuthority.Request\n\n" =
      "\"" ++ "\n" ++ Stmt.blank.print "" ++
        Stmt.print "" (.assign "req" " " (.newObject "CertificateAuthority.Request")) ++
        Stmt.blank.print "" := by
    decide +kernel
  unfold IssueTexts.input ScriptInput.script submitCertificateRequestScript submitConfig
    submitTemplate submitPolling submitSubmit
  rw [hconfig, htemplate, hpoll, htimeout, hcsr, hreq]
  simp only [issueProgram, Stmt.block, print_seq, print_issueSteps, hsetup]
  simp only [print_assign_text, print_assign_text_text, print_assign_int, String.append_assoc]

/-! ### The script, run -/

/-- A certificate request at the certification authority: `dispositions k` is
what its `k`-th poll returns. -/
structure PendingRequest where
  submitDisposition : ℤ
  requestId : ℤ
  certificate : String
  dispositions : ℕ → ℤ

/-- The polls made, and the milliseconds waited for them. -/
structure Polls where
  polls : ℕ
  waited : ℤ

/-- The object `CertificateAuthority.Request`. -/
def requestHost (r : PendingRequest) : Callee Polls where
  invoke method _ w :=
    if method = "Submit" then (.int r.submitDisposition, w)
    else if method = "GetRequestId" then (.int r.requestId, w)
    else if method = "GetCertificate" then (.str r.certificate, w)
    else if method = "RetrievePending" then
      (.int (r.dispositions (w.polls + 1)), { w with polls := w.polls + 1 })
    else (.null, w)
  sleep v w :=
    match v with
    | .int n => { w with waited := w.waited + n }
    | _ => w

/-- The text of the timeout error. -/
def timeoutText (requestId : ℤ) : String :=
  "Timeout waiting for certificate (request " ++ toString requestId ++ ")."

/-- The first poll that returns disposition 3, which means issued. -/
def FirstIssued (dispositions : ℕ → ℤ) (k : ℕ) : Prop :=
  1 ≤ k ∧ dispositions k = 3 ∧ ∀ j, 1 ≤ j → j < k → dispositions j ≠ 3

/-- The script ends; it outputs the certificate when the first poll to find it
issued starts before the timeout, throws the timeout error otherwise, and
throws only when it has polled for the timeout. -/
def PollingHonoured (r : PendingRequest) (script : Stmt) (d timeout : ℤ) : Prop :=
  ∃ fuel outcome st,
    script.run (requestHost r) fuel (Memory.init ⟨0, 0⟩) = some (outcome, st) ∧
    ((∃ k : ℕ, FirstIssued r.dispositions k ∧ (k - 1) * d < timeout) →
      outcome = .ok () ∧ st.output = [.str r.certificate]) ∧
    ((¬ ∃ k : ℕ, FirstIssued r.dispositions k ∧ (k - 1) * d < timeout) →
      outcome = .error (timeoutText r.requestId)) ∧
    ∀ text, outcome = .error text → timeout ≤ st.host.waited

section Run

variable {r : PendingRequest} {fuel : ℕ} {st : Memory Polls} {d : ℤ}

/-- One poll: the time waited counts up from null. -/
lemma run_pollOnce (hd : st.vars "pollMilliseconds" = .int d)
    (helapsed : st.vars "elapsed" = .null) :
    ∃ st', pollOnce.run (requestHost r) fuel st = some (.ok (), st') ∧
      st'.vars "elapsed" = .int d ∧
      st'.vars "disposition" = .int (r.dispositions (st.host.polls + 1)) ∧
      st'.vars "timeout" = st.vars "timeout" ∧
      st'.vars "requestId" = st.vars "requestId" ∧
      st'.host.waited = st.host.waited + d ∧ st'.output = st.output := by
  refine ⟨_, rfl, ?_, ?_, ?_, ?_, ?_, ?_⟩ <;>
    simp [requestHost, Expr.eval, Atom.eval, hd, helapsed, Value.add]

/-- The state after a certificate is fetched. -/
lemma run_getCertificate :
    getCertificate.run (requestHost r) fuel st =
      some (.ok (), st.set "certB64" (.str r.certificate)) := rfl

/-- The exit test holds after one poll: the variable it compares the time with
is never assigned. -/
lemma eval_pollExit (hd : 0 < d) (helapsed : st.vars "elapsed" = .int d)
    (htimeout : st.vars "timeout" = .null) : pollExit.eval st = true := by
  have hge : (Value.int d).ge .null = true := decide_eq_true hd.le
  simp only [pollExit, Cond.eval, Atom.eval, helapsed, htimeout, hge, Bool.or_true]

/-- **The polling loop makes one poll**, and the certificate is fetched or the
timeout error is thrown. -/
lemma run_pollPending (hpos : 0 < d) (hd : st.vars "pollMilliseconds" = .int d)
    (helapsed : st.vars "elapsed" = .null) (htimeout : st.vars "timeout" = .null)
    (hrequest : st.vars "requestId" = .int r.requestId) :
    ∃ st', st'.host.waited = st.host.waited + d ∧ st'.output = st.output ∧
      pollPending.run (requestHost r) (fuel + 1) st =
        if r.dispositions (st.host.polls + 1) = 3 then
          some (.ok (), st'.set "certB64" (.str r.certificate))
        else some (.error (timeoutText r.requestId), st') := by
  obtain ⟨st', hrun, helapsed', hdisposition, htimeout', hrequest', hwaited, houtput⟩ :=
    @run_pollOnce r (fuel + 1) st d hd helapsed
  refine ⟨st', hwaited, houtput, ?_⟩
  have hexit := eval_pollExit hpos helapsed' (htimeout'.trans htimeout)
  have hthrow : timeoutThrow.run (requestHost r) (fuel + 1) st' =
      some (.error (timeoutText r.requestId), st') := by
    refine congrArg (fun text => some (Except.error text, st'))
      ((evalQuoted_text_var_text st' _ _ _).trans ?_)
    rw [hrequest', hrequest]
    rfl
  have heval : Cond.eval st' (.eq (.var "disposition") (.int 3)) =
      decide (r.dispositions (st.host.polls + 1) = 3) := by
    simp [Cond.eval, Atom.eval, hdisposition, Value.eq]
  rw [pollPending, Stmt.block, Stmt.block, Stmt.block,
    run_seq_of_ok (run_doUntil_of_holds hrun hexit), run_seq_of_ok rfl, run_ifElse, heval,
    hthrow, run_getCertificate]
  simp only [decide_eq_true_eq]

/-- Without fuel the loop does not end. -/
lemma run_pollPending_zero : pollPending.run (requestHost r) 0 st = none :=
  run_seq_of_none run_doUntil_zero

variable {texts : IssueTexts} {timeout : ℤ}

/-- What the script knows when the submission is answered. -/
lemma run_issueProgram :
    ∃ st : Memory Polls, st.vars "disposition" = .int r.submitDisposition ∧
      st.vars "requestId" = .int r.requestId ∧ st.vars "pollMilliseconds" = .int d ∧
      st.vars "elapsed" = .null ∧ st.vars "timeout" = .null ∧ st.host = ⟨0, 0⟩ ∧
      st.output = [] ∧
      (issueProgram texts d timeout).run (requestHost r) fuel
          (Memory.init ⟨0, 0⟩) =
        (Stmt.block (.ifElse (.or (.eq (.var "disposition") (.int 0))
          (.eq (.var "disposition") (.int 3))) getCertificate pollPending)
          [.blank, .output "certB64"]).run (requestHost r) fuel st := by
  let st : Memory Polls := (((((((((Memory.init ⟨0, 0⟩).set
    "config" (.str texts.ca.configString)).set
    "template" (.str ("CertificateTemplate:" ++ texts.template.name))).set "encoding" (.int 1)).set
    "pollMilliseconds" (.int d)).set "timeoutMilliseconds" (.int timeout)).set "csr"
    (.str texts.request)).set "req" .object).set "disposition" (.int r.submitDisposition)).set
    "requestId" (.int r.requestId)
  refine ⟨st, ?_, ?_, ?_, ?_, ?_, ?_, ?_, ?_⟩
  · simp [st]
  · simp [st]
  · simp [st]
  · simp [st, Memory.init]
  · simp [st, Memory.init]
  · simp [st, Memory.init]
  · simp [st, Memory.init]
  · unfold issueProgram issueSteps
    simp only [Stmt.block]
    rw [run_seq_of_ok rfl, run_seq_assign (eval_quoted_text _),
      run_seq_assign (eval_quoted_text_text _ _), run_seq_assign rfl, run_seq_assign rfl,
      run_seq_assign rfl, run_seq_blank, run_seq_assign (eval_quoted_text _), run_seq_blank,
      run_seq_assign rfl, run_seq_blank, run_seq_assign rfl, run_seq_assign rfl, run_seq_blank]
    rfl

/-- A submission that is neither issued nor denied leads to the polling loop. -/
lemma run_submitted (hdisposition : st.vars "disposition" = .int r.submitDisposition)
    (h0 : r.submitDisposition ≠ 0) (h3 : r.submitDisposition ≠ 3) :
    (Stmt.ifElse (.or (.eq (.var "disposition") (.int 0)) (.eq (.var "disposition") (.int 3)))
        getCertificate pollPending).run (requestHost r) fuel st =
      pollPending.run (requestHost r) fuel st := by
  have heval : Cond.eval st (.or (.eq (.var "disposition") (.int 0))
      (.eq (.var "disposition") (.int 3))) = false := by
    simp [Cond.eval, Atom.eval, hdisposition, Value.eq, h0, h3]
  rw [run_ifElse, heval, if_neg Bool.false_ne_true]

/-- Without fuel the script does not end. -/
lemma run_issueProgram_zero (h0 : r.submitDisposition ≠ 0) (h3 : r.submitDisposition ≠ 3) :
    (issueProgram texts d timeout).run (requestHost r) 0 (Memory.init ⟨0, 0⟩) =
      none := by
  obtain ⟨st, hdisposition, -, -, -, -, -, -, hrun⟩ :=
    @run_issueProgram r 0 d texts timeout
  rw [hrun]
  exact run_seq_of_none ((run_submitted hdisposition h0 h3).trans run_pollPending_zero)

/-- **The script ends after one poll**, with the certificate or the timeout error. -/
lemma run_issueProgram_succ (hpos : 0 < d) (h0 : r.submitDisposition ≠ 0)
    (h3 : r.submitDisposition ≠ 3) :
    ∃ st st' : Memory Polls, st.output = [.str r.certificate] ∧ st'.host.waited = d ∧
      (issueProgram texts d timeout).run (requestHost r) (fuel + 1)
          (Memory.init ⟨0, 0⟩) =
        if r.dispositions 1 = 3 then some (.ok (), st)
        else some (.error (timeoutText r.requestId), st') := by
  obtain ⟨st, hdisposition, hrequest, hd, helapsed, htimeout, hhost, houtput, hrun⟩ :=
    @run_issueProgram r (fuel + 1) d texts timeout
  obtain ⟨st', hwaited, houtput', hpoll⟩ :=
    @run_pollPending r fuel st d hpos hd helapsed htimeout hrequest
  rw [hhost, zero_add] at hwaited hpoll
  have hstart := (@run_submitted r (fuel + 1) st hdisposition h0 h3).trans hpoll
  refine ⟨{ st'.set "certB64" (.str r.certificate) with output := [.str r.certificate] }, st',
    rfl, hwaited, ?_⟩
  rw [hrun]
  by_cases hissued : r.dispositions 1 = 3
  · rw [if_pos hissued] at hstart ⊢
    rw [Stmt.block, Stmt.block, Stmt.block, run_seq_of_ok hstart, run_seq_blank, run_output,
      Memory.set_vars_self, Memory.set_output, houtput', houtput, List.nil_append]
  · rw [if_neg hissued] at hstart ⊢
    exact run_seq_of_error hstart

end Run

/-! ### The timeout -/

/-- **The polling timeout.** Of texts without special characters, the script honours its
timeout exactly when the certificate is issued at the first poll or the timeout is one
interval. -/
theorem polling_honoured_iff (r : PendingRequest) (request : String) (ca : AuthorityData)
    (template : TemplateData)
    (hplain : ∀ text ∈ [ca.configString, template.name, request], Plain text.toList)
    (d timeout : ℤ) (hpos : 0 < d) (htimeout : d ≤ timeout)
    (h0 : r.submitDisposition ≠ 0) (h3 : r.submitDisposition ≠ 3) :
    (issueProgram ⟨request, ca, template, hplain⟩ d timeout).print "" =
        submitCertificateRequestScript request ca template d timeout ∧
      (ScriptInput.submit request ca template d timeout).Denoted ∧
      (PollingHonoured r (issueProgram ⟨request, ca, template, hplain⟩ d timeout) d timeout ↔
        r.dispositions 1 = 3 ∨ timeout = d) := by
  let texts : IssueTexts := ⟨request, ca, template, hplain⟩
  refine ⟨issueProgram_print texts d timeout, texts.denoted d timeout, ?_, ?_⟩
  · rintro ⟨fuel, outcome, final, hrun, -, -, hwait⟩
    cases fuel with
    | zero =>
        rw [run_issueProgram_zero h0 h3] at hrun
        cases hrun
    | succ fuel =>
        obtain ⟨st, st', -, hwaited, hend⟩ :=
          @run_issueProgram_succ r fuel d texts timeout hpos h0 h3
        rw [hend] at hrun
        by_cases hissued : r.dispositions 1 = 3
        · exact .inl hissued
        · -- the error is thrown after one interval
          rw [if_neg hissued] at hrun
          obtain ⟨rfl, rfl⟩ := Prod.mk.inj (Option.some.inj hrun)
          have hle := hwait _ rfl
          exact .inr (by omega)
  · intro h
    obtain ⟨st, st', houtput, hwaited, hend⟩ :=
      @run_issueProgram_succ r 0 d texts timeout hpos h0 h3
    by_cases hissued : r.dispositions 1 = 3
    · rw [if_pos hissued] at hend
      refine ⟨1, _, st, hend, fun _ => ⟨rfl, houtput⟩, fun hnone => ?_, fun text htext => ?_⟩
      · have hfirst : FirstIssued r.dispositions 1 :=
          ⟨le_rfl, hissued, fun j hj hlt => by omega⟩
        have hzero : (((1 : ℕ) : ℤ) - 1) * d = 0 := by ring
        exact absurd ⟨1, hfirst, by omega⟩ hnone
      · cases htext
    · rw [if_neg hissued] at hend
      have hone : timeout = d := h.resolve_left hissued
      refine ⟨1, _, st', hend, ?_, fun _ => rfl, fun text htext => by omega⟩
      -- a poll that starts before one interval has passed is the first
      rintro ⟨k, ⟨hk, hthree, -⟩, hlt⟩
      have hk1 : k = 1 := by
        by_contra hne
        have hge : 1 * d ≤ ((k : ℤ) - 1) * d :=
          mul_le_mul_of_nonneg_right (by omega) hpos.le
        omega
      exact absurd (hk1 ▸ hthree) hissued

/-- A request that is pending after the first poll and issued at the second. -/
def slowRequest : PendingRequest where
  submitDisposition := 5
  requestId := 42
  certificate := "MII="
  dispositions k := if k < 2 then 5 else 3

/-- The certification authority it is sent to. -/
def issuingCa : AuthorityData where
  name := "Demo Sub CA"
  displayName := "Demo Sub CA"
  computerName := "ca.example.com"
  configString := "ca.example.com\\Demo Sub CA"
  caType := "Enterprise Subordinate CA"
  isEnterprise := .bool true
  isRoot := .bool false
  isAccessible := .bool true
  serviceStatus := .str "Running"

/-- The template it is for. -/
def webTemplate : TemplateData where
  name := "WebServer"
  displayName := "Web Server"
  schemaVersion := "1"
  version := "4.1"
  oid := "1.3.6.1.4.1.311.21.8.1.16"

lemma plain_webRequest :
    ∀ text ∈ [issuingCa.configString, webTemplate.name, "MIIB"], Plain text.toList := by
  simp only [List.forall_mem_cons, List.not_mem_nil, false_imp_iff, implies_true, and_true]
  decide

/-- The texts of a request for a certificate of the template. -/
def webTexts : IssueTexts := ⟨"MIIB", issuingCa, webTemplate, plain_webRequest⟩

theorem polling_honoured_sample :
    (issueProgram webTexts 100 100).print "" =
        submitCertificateRequestScript "MIIB" issuingCa webTemplate 100 100 ∧
      (ScriptInput.submit "MIIB" issuingCa webTemplate 100 100).Denoted ∧
      (PollingHonoured slowRequest (issueProgram webTexts 100 100) 100 100 ↔
        slowRequest.dispositions 1 = 3 ∨ (100 : ℤ) = 100) :=
  polling_honoured_iff slowRequest "MIIB" issuingCa webTemplate plain_webRequest 100 100
    (by omega) le_rfl (by decide) (by decide)

/-- With the default interval and timeout, a certificate issued at the second
poll is given up after the first. -/
theorem slow_request_times_out :
    ¬ ∀ (r : PendingRequest) (texts : IssueTexts) (d timeout : ℤ), 0 < d → d ≤ timeout →
      r.submitDisposition ≠ 0 → r.submitDisposition ≠ 3 →
      PollingHonoured r (issueProgram texts d timeout) d timeout := by
  intro h
  obtain ⟨fuel, outcome, final, hrun, hissued, -, -⟩ :=
    h slowRequest webTexts 100 3000 (by omega) (by omega) (by decide) (by decide)
  have hsecond : FirstIssued slowRequest.dispositions 2 := by
    refine ⟨by omega, rfl, fun j hj hlt => ?_⟩
    obtain rfl : j = 1 := by omega
    decide
  obtain ⟨rfl, -⟩ := hissued ⟨2, hsecond, by norm_num⟩
  cases fuel with
  | zero =>
      rw [run_issueProgram_zero (by decide) (by decide)] at hrun
      cases hrun
  | succ fuel =>
      obtain ⟨st, st', -, -, hend⟩ := @run_issueProgram_succ slowRequest fuel 100 webTexts 3000
        (by omega) (by decide) (by decide)
      rw [hend, if_neg (by decide)] at hrun
      cases hrun

end AdcsConnector
