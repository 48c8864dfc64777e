/-
`services/certificate_management.py`: `issue` and `renew`, down to the calls that
the script makes on the certification authority.

* `issue`, `renew`: the services, on what they read of a request;
* `Executes`: a host that runs the script on the authority behind it;
* `Submission`: the calls of one submission, with what they have returned, and
  `triple_issueProgram`: the script makes no others;
* `issue_submits_once`: every call of a service sends the script once or not at all,
  and with plain texts this is one submission, whose certificate is returned.
-/
import AdcsConnector.Library.Triple
import AdcsConnector.CertificateManagement
import AdcsConnector.Polling

namespace AdcsConnector

open Program Quoting Shell

/-! ### The services -/

/-- What `issue` reads of a request. -/
structure IssueRequest where
  raProfileAttributes : List Attribute
  request : String
  format : String

/-- What `renew` reads of a request. -/
structure RenewRequest extends IssueRequest where
  certificate : String

/-- `CertificateRequestFormat(value)`. -/
def CertificateRequestFormat.ofValue (value : String) : Option CertificateRequestFormat :=
  if value = "crmf" then some .crmf else if value = "pkcs10" then some .pkcs10 else none

/-- The format of a request, or the exception that it is not supported. -/
def requestFormat (format : String) : Except PyError CertificateRequestFormat :=
  match CertificateRequestFormat.ofValue format with
  | some requestFormat => .ok requestFormat
  | none =>
      .error (.validation ("Certificate request format '" ++ format ++ "' is not supported."))

/-- `prepare_and_issue`. -/
def prepareAndIssue (env : ServiceEnvironment) (requestDto : IssueRequest) (uuid : String) :
    Session CertificateDto := do
  let ca ← lift (getCaFromAttributes requestDto.raProfileAttributes)
  let template ← lift (getTemplateFromAttributes requestDto.raProfileAttributes)
  let requestFormat ← lift (requestFormat requestDto.format)
  issueNewCertificate env uuid requestDto.request requestFormat ca template

/-- `issue`. -/
def issue (env : ServiceEnvironment) (requestDto : IssueRequest) (uuid : String) :
    Session CertificateDto :=
  prepareAndIssue env requestDto uuid

/-- `renew`; the serial number is only logged. -/
def renew (env : ServiceEnvironment) (requestDto : RenewRequest) (uuid : String) :
    Session CertificateDto := do
  let _ ← lift (getCertificateSerialNumber env requestDto.certificate)
  prepareAndIssue env requestDto.toIssueRequest uuid

/-! ### What a request resolves to -/

/-- The authority, the template, the request in the format the script takes and the
host, as a service finds them before it opens a shell. -/
structure Resolved (env : ServiceEnvironment) (requestDto : IssueRequest) (uuid : String) where
  ca : AuthorityData
  template : TemplateData
  format : CertificateRequestFormat
  request : String
  host : Host
  ca_eq : getCaFromAttributes requestDto.raProfileAttributes = .ok ca
  template_eq : getTemplateFromAttributes requestDto.raProfileAttributes = .ok template
  format_eq : requestFormat requestDto.format = .ok format
  request_eq : convertRequest env requestDto.request format ca template = .ok request
  host_eq : createSession env.toEnvironment uuid = .ok host

variable {env : ServiceEnvironment} {requestDto : IssueRequest} {uuid : String}

/-- The script that is sent. -/
def Resolved.script (resolved : Resolved env requestDto uuid) : String :=
  submitCertificateRequestScript resolved.request resolved.ca resolved.template
    env.issuePollingInterval env.issuePollingTimeout

/-- No text in it has a special character. -/
def Resolved.PlainTexts (resolved : Resolved env requestDto uuid) : Prop :=
  ∀ text ∈ [resolved.ca.configString, resolved.template.name, resolved.request],
    Plain text.toList

/-- The program of its text, when the texts in it are plain. -/
def Resolved.program (resolved : Resolved env requestDto uuid) (hplain : resolved.PlainTexts) :
    Stmt :=
  issueProgram ⟨resolved.request, resolved.ca, resolved.template, hplain⟩
    env.issuePollingInterval env.issuePollingTimeout

/-- The session in which it is run. -/
def Resolved.session (resolved : Resolved env requestDto uuid) : Session CertificateDto := do
  connect resolved.host
  let result ← runPs resolved.host resolved.script
  disconnect resolved.host
  lift (issuedCertificate result)

/-- With one shell more. -/
def opened (w : Wire) : Wire := { w with openShells := w.openShells + 1 }

/-- What the host answers to the script. -/
def Resolved.answer (resolved : Resolved env requestDto uuid) (w : Wire) :
    Except PyError Response :=
  resolved.host.powershell (opened w) resolved.script

/-- A computation without effects, and what follows it. -/
lemma run_lift_bind_eq_some {α β : Type} {x : Except PyError α} {f : α → Session β} {w w' : Wire}
    {r : Except PyError β} (h : (lift x >>= f) w = some (r, w')) :
    (w' = w ∧ ∃ e, r = .error e) ∨ ∃ a, x = .ok a ∧ f a w = some (r, w') := by
  rcases run_bind_eq_some.mp h with ⟨e, hx, rfl⟩ | ⟨a, u, hx, hf⟩
  · cases hx
    exact .inl ⟨rfl, e, rfl⟩
  · cases hx
    exact .inr ⟨a, rfl, hf⟩

/-- A service that raises before it opens a shell sends nothing; otherwise it runs the
session of what the request resolves to. -/
lemma resolved_of_prepareAndIssue {w w' : Wire} {r : Except PyError CertificateDto}
    (h : prepareAndIssue env requestDto uuid w = some (r, w')) :
    (w' = w ∧ ∃ e, r = .error e) ∨
      ∃ resolved : Resolved env requestDto uuid, resolved.session w = some (r, w') := by
  rcases run_lift_bind_eq_some h with hraised | ⟨ca, hca, h⟩
  · exact .inl hraised
  rcases run_lift_bind_eq_some h with hraised | ⟨template, htemplate, h⟩
  · exact .inl hraised
  rcases run_lift_bind_eq_some h with hraised | ⟨format, hformat, h⟩
  · exact .inl hraised
  rcases run_lift_bind_eq_some h with hraised | ⟨request, hrequest, h⟩
  · exact .inl hraised
  rcases run_lift_bind_eq_some h with hraised | ⟨host, hhost, h⟩
  · exact .inl hraised
  exact .inr ⟨⟨ca, template, format, request, host, hca, htemplate, hformat, hrequest, hhost⟩, h⟩

/-- What a session sends: nothing when no shell is opened, and otherwise the script; it
returns only what it makes of an answer with status 0. -/
lemma Resolved.session_cases (resolved : Resolved env requestDto uuid) {w w' : Wire}
    {r : Except PyError CertificateDto} (h : resolved.session w = some (r, w')) :
    (w' = w ∧ ∃ e, r = .error e) ∨
      w'.sent = w.sent ++ [resolved.script] ∧
        ((∃ e, resolved.answer w = .error e ∧ r = .error e) ∨
          ∃ result, resolved.answer w = .ok result ∧ ∀ certificate, r = .ok certificate →
            result.statusCode = 0 ∧ issuedCertificate result = .ok certificate) := by
  rcases run_bind_eq_some.mp h with ⟨e, hconnect, rfl⟩ | ⟨_, w₁, hconnect, h⟩
  · refine .inl ⟨?_, e, rfl⟩
    simp only [connect] at hconnect
    split at hconnect <;> cases hconnect
    rfl
  obtain rfl : w₁ = opened w := by
    simp only [connect] at hconnect
    split at hconnect <;> cases hconnect
    rfl
  refine .inr ?_
  rcases run_bind_eq_some.mp h with ⟨e, hrun, rfl⟩ | ⟨result, w₂, hrun, h⟩
  · obtain ⟨r₁, hr₁⟩ := exists_runPs resolved.host resolved.script (opened w)
    rw [hr₁] at hrun
    cases hrun
    refine ⟨rfl, ?_⟩
    cases hanswer : resolved.answer w with
    | error e' =>
        have herror : runPs resolved.host resolved.script (opened w) = some (.error e', _) :=
          run_bind_eq_some.mpr (.inl ⟨e', congrArg (fun x => some (x, _)) hanswer, rfl⟩)
        rw [hr₁] at herror
        cases herror
        exact .inl ⟨e, rfl, rfl⟩
    | ok result => exact .inr ⟨result, rfl, fun _ heq => by cases heq⟩
  obtain ⟨hanswer, haccepts, rfl⟩ := returns_runPs.mp hrun
  have hsent {r' : Except PyError Unit} {w₃ : Wire}
      (hd : disconnect resolved.host { opened w with sent := w.sent ++ [resolved.script] } =
        some (r', w₃)) : w₃.sent = w.sent ++ [resolved.script] := by
    simp only [disconnect] at hd
    split at hd <;> cases hd <;> rfl
  rcases run_bind_eq_some.mp h with ⟨e, hd, rfl⟩ | ⟨_, w₃, hd, h⟩
  · exact ⟨hsent hd, .inr ⟨result, hanswer, fun _ heq => by cases heq⟩⟩
  · cases h
    exact ⟨hsent hd, .inr ⟨result, hanswer, fun _ heq => ⟨haccepts.statusCode, heq⟩⟩⟩

/-! ### The calls of a submission -/

/-- One submission: what the authority has returned of it, and of the polls for it. -/
structure Submission where
  disposition : Value
  requestId : Value
  polls : List Value

namespace Submission

/-- The last disposition that the authority has returned. -/
def latest (s : Submission) : Value := s.polls.getLastD s.disposition

/-- The calls of the submission of a request. -/
def calls (s : Submission) (request : String) (ca : AuthorityData) (template : TemplateData) :
    List Call :=
  ⟨"Submit", [.int 0xff, .str request, .str ("CertificateTemplate:" ++ template.name),
      .str ca.configString], s.disposition⟩ ::
    ⟨"GetRequestId", [], s.requestId⟩ ::
    s.polls.map fun disposition =>
      ⟨"RetrievePending", [s.requestId, .str ca.configString], disposition⟩

/-- The submission is polled for unless it is answered at once, and at most once when the
polling interval is not negative. -/
structure Polled (s : Submission) (interval : ℤ) : Prop where
  polls_eq_nil_iff : s.polls = [] ↔ s.disposition = .int 0 ∨ s.disposition = .int 3
  length_le : 0 ≤ interval → s.polls.length ≤ 1

/-- It is answered at once, or issued at the last poll. -/
def Granted (s : Submission) : Prop := s.polls = [] ∨ s.latest = .int 3

/-- The call that fetches the certificate. -/
def fetch (certificate : Value) : Call := ⟨"GetCertificate", [.int 1], certificate⟩

end Submission

section Script

variable {ω : Type} {h : Callee ω} {fuel : ℕ} {request : String} {ca : AuthorityData}
  {template : TemplateData} {d timeout : ℤ}

/-- Before the submission: the variables are assigned and nothing is called. -/
structure Prepared (request : String) (ca : AuthorityData) (template : TemplateData) (d : ℤ)
    (st : Memory (ω × List Call)) : Prop where
  csr : st.vars "csr" = .str request
  template : st.vars "template" = .str ("CertificateTemplate:" ++ template.name)
  config : st.vars "config" = .str ca.configString
  encoding : st.vars "encoding" = .int 1
  pollMilliseconds : st.vars "pollMilliseconds" = .int d
  elapsed : st.vars "elapsed" = .null
  timeout : st.vars "timeout" = .null
  output : st.output = []
  calls : st.host.2 = []

/-- After the submission and some polls. -/
structure Submitted (request : String) (ca : AuthorityData) (template : TemplateData) (d : ℤ)
    (s : Submission) (st : Memory (ω × List Call)) : Prop where
  requestId : st.vars "requestId" = s.requestId
  config : st.vars "config" = .str ca.configString
  encoding : st.vars "encoding" = .int 1
  pollMilliseconds : st.vars "pollMilliseconds" = .int d
  timeout : st.vars "timeout" = .null
  disposition : st.vars "disposition" = s.latest
  output : st.output = []
  calls : st.host.2 = s.calls request ca template

/-- The script up to the submission. -/
lemma exists_prepared (texts : IssueTexts) (w : ω) : ∃ st : Memory (ω × List Call),
    Prepared texts.request texts.ca texts.template d st ∧
      (issueProgram texts d timeout).run h.recording fuel (Memory.init (w, [])) =
        issueSteps.run h.recording fuel st := by
  refine ⟨((((((((Memory.init (w, [])).set "config" (.str texts.ca.configString)).set
    "template" (.str ("CertificateTemplate:" ++ texts.template.name))).set "encoding" (.int 1)).set
    "pollMilliseconds" (.int d)).set "timeoutMilliseconds" (.int timeout)).set "csr"
    (.str texts.request)).set "req" .object), ?_, ?_⟩
  · constructor <;> simp [Memory.init]
  · unfold issueProgram
    simp only [Stmt.block]
    rw [run_seq_of_ok rfl, run_seq_assign (eval_quoted_text _),
      run_seq_assign (eval_quoted_text_text _ _), run_seq_assign rfl, run_seq_assign rfl,
      run_seq_assign rfl, run_seq_blank, run_seq_assign (eval_quoted_text _), run_seq_blank,
      run_seq_assign rfl, run_seq_blank]
    rfl

section Loop

variable {s : Submission} {st st' : Memory (ω × List Call)}

/-- The time that has elapsed is not part of the submission. -/
lemma Submitted.congr (hst : Submitted request ca template d s st)
    (hvars : ∀ name, name ≠ "elapsed" → st'.vars name = st.vars name)
    (houtput : st'.output = st.output) (hcalls : st'.host.2 = st.host.2) :
    Submitted request ca template d s st' where
  requestId := (hvars _ (by decide)).trans hst.requestId
  config := (hvars _ (by decide)).trans hst.config
  encoding := (hvars _ (by decide)).trans hst.encoding
  pollMilliseconds := (hvars _ (by decide)).trans hst.pollMilliseconds
  timeout := (hvars _ (by decide)).trans hst.timeout
  disposition := (hvars _ (by decide)).trans hst.disposition
  output := houtput.trans hst.output
  calls := hcalls.trans hst.calls

/-- One more poll for the submission. -/
lemma Submitted.poll (hst : Submitted request ca template d s st) (w : ω) (v : Value) :
    Submitted request ca template d { s with polls := s.polls ++ [v] } (Memory.set
      ⟨st.vars, st.output, w, st.host.2 ++
        [⟨"RetrievePending", [.var "requestId", .var "config"].map (Atom.eval st), v⟩]⟩
      "disposition" v) where
  requestId := by simp [hst.requestId]
  config := by simp [hst.config]
  encoding := by simp [hst.encoding]
  pollMilliseconds := by simp [hst.pollMilliseconds]
  timeout := by simp [hst.timeout]
  disposition := by simp [Submission.latest]
  output := by simp [hst.output]
  calls := by simp [hst.calls, Submission.calls, Atom.eval, hst.requestId, hst.config]

end Loop

/-- A submission that is not answered at once. -/
def Submission.Pending (s : Submission) : Prop :=
  ¬ (s.disposition = .int 0 ∨ s.disposition = .int 3)

/-- Before a round of the loop: with an interval that is not negative, it is the first. -/
def BeforeRound (request : String) (ca : AuthorityData) (template : TemplateData) (d : ℤ)
    (st : Memory (ω × List Call)) : Prop :=
  ∃ s, Submitted request ca template d s st ∧ s.Pending ∧
    (0 ≤ d → s.polls = [] ∧ st.vars "elapsed" = .null)

/-- After a round: the elapsed time counts up from null. -/
def AfterRound (request : String) (ca : AuthorityData) (template : TemplateData) (d : ℤ)
    (st : Memory (ω × List Call)) : Prop :=
  ∃ s, Submitted request ca template d s st ∧ s.Pending ∧ s.polls ≠ [] ∧
    (0 ≤ d → s.polls.length ≤ 1 ∧ st.vars "elapsed" = .int d)

lemma triple_pollOnce {E : String → Memory (ω × List Call) → Prop} :
    Triple (BeforeRound request ca template d) (pollOnce.run h.recording fuel)
      (fun _ => AfterRound request ca template d) E := by
  refine triple_seq (R := BeforeRound request ca template d) (triple_sleep fun st hst => ?_)
    (triple_seq (R := fun st => ∃ s, Submitted request ca template d s st ∧ s.Pending ∧
      (0 ≤ d → s.polls = [] ∧ st.vars "elapsed" = .int d)) (triple_addAssign ?_) (triple_call ?_))
  · obtain ⟨s, hs, hpending, hfirst⟩ := hst
    exact ⟨s, hs.congr (fun _ _ => rfl) rfl rfl, hpending, hfirst⟩
  · rintro st ⟨s, hs, hpending, hfirst⟩
    refine ⟨s, hs.congr (fun name hname => Memory.set_vars_ne _ hname _) rfl rfl, hpending,
      fun hd => ⟨(hfirst hd).1, ?_⟩⟩
    rw [Memory.set_vars_self, (hfirst hd).2]
    exact hs.pollMilliseconds
  · rintro st ⟨s, hs, hpending, hfirst⟩ w v
    refine ⟨_, hs.poll w v, hpending, List.append_ne_nil_of_right_ne_nil _ (by simp), fun hd => ?_⟩
    obtain ⟨hnil, helapsed⟩ := hfirst hd
    exact ⟨by simp [hnil], by simp [helapsed]⟩

/-- The exit test after a round. -/
lemma eval_pollExit_iff {s : Submission} {st : Memory (ω × List Call)}
    (hst : Submitted request ca template d s st) :
    pollExit.eval st = true ↔ s.latest = .int 3 ∨ (st.vars "elapsed").ge .null = true := by
  simp [pollExit, Cond.eval, Atom.eval, hst.disposition, hst.timeout, Value.eq]

/-- What the script has done when it outputs a certificate: one submission, which is
granted, and the fetch of its certificate. -/
def Fetched (request : String) (ca : AuthorityData) (template : TemplateData) (d : ℤ)
    (output : List Value) (calls : List Call) : Prop :=
  ∃ (s : Submission) (certificate : Value), s.Polled d ∧ s.Granted ∧ output = [certificate] ∧
    calls = s.calls request ca template ++ [Submission.fetch certificate]

/-- What it has done when it gives up: one submission, which is not granted. -/
def GivenUp (request : String) (ca : AuthorityData) (template : TemplateData) (d : ℤ)
    (text : String) (calls : List Call) : Prop :=
  ∃ s : Submission, s.Polled d ∧ ¬ s.Granted ∧
    text = "Timeout waiting for certificate (request " ++ s.requestId.text ++ ")." ∧
    calls = s.calls request ca template

/-- The certificate is fetched and not output yet. -/
def InHand (request : String) (ca : AuthorityData) (template : TemplateData) (d : ℤ)
    (st : Memory (ω × List Call)) : Prop :=
  ∃ s : Submission, s.Polled d ∧ s.Granted ∧ st.output = [] ∧
    st.host.2 = s.calls request ca template ++ [Submission.fetch (st.vars "certB64")]

/-- The certificate of a submission that is granted is fetched. -/
lemma triple_getCertificate {E : String → Memory (ω × List Call) → Prop} :
    Triple (fun st => ∃ s : Submission, s.Polled d ∧ s.Granted ∧
        Submitted request ca template d s st)
      (getCertificate.run h.recording fuel) (fun _ => InHand request ca template d) E := by
  refine triple_call ?_
  rintro st ⟨s, hpolled, hgranted, hst⟩ w v
  exact ⟨s, hpolled, hgranted, hst.output, by
    simp [hst.calls, Atom.eval, hst.encoding, Submission.fetch]⟩

/-- The loop, and what follows it. -/
lemma triple_pollPending :
    Triple (BeforeRound request ca template d) (pollPending.run h.recording fuel)
      (fun _ => InHand request ca template d)
      (fun text st => GivenUp request ca template d text st.host.2) := by
  refine triple_seq (R := AfterRound request ca template d) (triple_doUntil ?_)
    (triple_seq triple_blank (triple_ifElse (triple_getCertificate.imp ?_ (fun _ _ => id)
      fun _ _ => id) (triple_throw ?_)))
  · refine triple_pollOnce.imp (fun _ => id) (fun _ st hst => ⟨fun _ => hst, fun hexit => ?_⟩)
      fun _ _ => id
    -- with an interval that is not negative the time has elapsed after one round
    obtain ⟨s, hs, hpending, -, hlength⟩ := hst
    refine ⟨s, hs, hpending, fun hd => ?_⟩
    have hge : (Value.int d).ge .null = true := decide_eq_true hd
    have hexit' := (eval_pollExit_iff hs).mpr (.inr ((hlength hd).2 ▸ hge))
    rw [hexit] at hexit'
    cases hexit'
  · rintro st ⟨⟨s, hs, hpending, hne, hlength⟩, hthree⟩
    refine ⟨s, ⟨iff_of_false hne hpending, fun hd => (hlength hd).1⟩, .inr ?_, hs⟩
    exact hs.disposition.symm.trans (of_decide_eq_true hthree)
  · rintro st ⟨⟨s, hs, hpending, hne, hlength⟩, hthree⟩
    refine ⟨s, ⟨iff_of_false hne hpending, fun hd => (hlength hd).1⟩, ?_, ?_, hs.calls⟩
    · rintro (hnil | hlatest)
      · exact hne hnil
      · exact of_decide_eq_false hthree (hs.disposition.trans hlatest)
    · rw [evalQuoted_text_var_text, hs.requestId]

/-- From the submission on. -/
lemma triple_issueSteps :
    Triple (Prepared request ca template d) (issueSteps.run h.recording fuel)
      (fun _ st => Fetched request ca template d st.output st.host.2)
      (fun text st => GivenUp request ca template d text st.host.2) := by
  refine triple_seq (R := fun st => ∃ st₀ w v, Prepared request ca template d st₀ ∧
      st = Memory.set ⟨st₀.vars, st₀.output, w, st₀.host.2 ++
        [⟨"Submit", [.hex 0xff, .var "csr", .var "template", .var "config"].map (Atom.eval st₀),
          v⟩]⟩ "disposition" v) (triple_call fun st hst w v => ⟨st, w, v, hst, rfl⟩)
    (triple_seq (R := fun st => ∃ s : Submission, s.polls = [] ∧
      Submitted request ca template d s st ∧ st.vars "elapsed" = .null) (triple_call ?_)
      (triple_seq triple_blank (triple_seq (R := InHand request ca template d)
        (triple_ifElse (triple_getCertificate.imp ?_ (fun _ _ => id) fun _ _ => id)
          (triple_pollPending.imp ?_ (fun _ _ => id) fun _ _ => id))
        (triple_seq triple_blank (triple_output ?_)))))
  · rintro _ ⟨st, w, disposition, hst, rfl⟩ w' requestId
    refine ⟨⟨disposition, requestId, []⟩, rfl, ?_, ?_⟩
    · constructor <;> simp [hst.config, hst.encoding, hst.pollMilliseconds, hst.timeout, hst.output,
        hst.calls, hst.csr, hst.template, Atom.eval, Submission.latest, Submission.calls]
    · simp [hst.elapsed]
  · rintro st ⟨⟨s, hnil, hs, -⟩, hcond⟩
    refine ⟨s, ⟨iff_of_true hnil ?_, fun _ => by simp [hnil]⟩, .inl hnil, hs⟩
    simpa [Cond.eval, Atom.eval, hs.disposition, Submission.latest, hnil, Value.eq] using hcond
  · rintro st ⟨⟨s, hnil, hs, helapsed⟩, hcond⟩
    refine ⟨s, hs, ?_, fun _ => ⟨hnil, helapsed⟩⟩
    simpa [Submission.Pending, Cond.eval, Atom.eval, hs.disposition, Submission.latest, hnil,
      Value.eq] using hcond
  · rintro st ⟨s, hpolled, hgranted, houtput, hcalls⟩
    exact ⟨s, _, hpolled, hgranted, by rw [houtput]; rfl, hcalls⟩

/-- **The script submits once.** Whatever the authority answers, the calls of the script
are those of one submission of the request, and the fetch of its certificate when it is
granted. -/
lemma endsWith_issueProgram {texts : IssueTexts} {start : ω} {outcome : Except String Unit}
    {output : List Value} {calls : List Call}
    (hends : (issueProgram texts d timeout).EndsWith h start outcome output calls) :
    (outcome = .ok () → Fetched texts.request texts.ca texts.template d output calls) ∧
      ∀ text, outcome = .error text →
        GivenUp texts.request texts.ca texts.template d text calls := by
  refine hends.post fun fuel => ?_
  obtain ⟨st, hst, hrun⟩ : ∃ st, Prepared texts.request texts.ca texts.template d st ∧
      (issueProgram texts d timeout).run h.recording fuel (Memory.init (start, [])) =
        issueSteps.run h.recording fuel st := exists_prepared texts start
  rintro _ rfl
  rw [hrun]
  exact triple_issueSteps st hst

end Script

/-! ### The services, end to end -/

/-- What is written of the values that a script outputs, a line each. -/
def writtenOutput (output : List Value) : String :=
  String.join (output.map fun v => if v = .null then "" else v.text ++ "\r\n")

/-- The answer to a script that has ended: its output with status 0, or another status
when it has thrown. -/
structure AnswerOf (outcome : Except String Unit) (output : List Value) (result : Response) :
    Prop where
  status : result.statusCode = 0 ↔ outcome = .ok ()
  stdOut : outcome = .ok () → decode result.stdOut = .ok (writtenOutput output)

/-- The host runs the program on the authority behind it: when it answers its text, the
program has ended. -/
def Executes {ω : Type} (host : Host) (h : Callee ω) (state : Wire → ω) (p : Stmt) : Prop :=
  ∀ w result, host.powershell w (p.print "") = .ok result →
    ∃ fuel outcome st, p.run h fuel (Memory.init (state w)) = some (outcome, st) ∧
      AnswerOf outcome st.output result

/-- The lines of a text joined. -/
def joinLines (text : String) : String :=
  String.ofList (text.toList.filter (! isLineBreak ·))

/-- How a service ends that has sent the script: it is not answered; the script has given
up a submission; or it has fetched the certificate of a submission, and no other is
returned. -/
inductive Concluded {ω : Type} (resolved : Resolved env requestDto uuid)
    (hplain : resolved.PlainTexts) (h : Callee ω) (start : ω) (answer : Except PyError Response) :
    Except PyError CertificateDto → Prop
  | unanswered {e : PyError} (hanswer : answer = .error e) :
      Concluded resolved hplain h start answer (.error e)
  | givenUp {text : String} {output : List Value} {calls : List Call} {e : PyError}
      (hends : (resolved.program hplain).EndsWith h start (.error text) output calls)
      (hgiven : GivenUp resolved.request resolved.ca resolved.template env.issuePollingInterval
        text calls) :
      Concluded resolved hplain h start answer (.error e)
  | fetched {output : List Value} {calls : List Call} {r : Except PyError CertificateDto}
      (hends : (resolved.program hplain).EndsWith h start (.ok ()) output calls)
      (hfetched : Fetched resolved.request resolved.ca resolved.template env.issuePollingInterval
        output calls)
      (hreturned : ∀ certificate, r = .ok certificate → ∀ v ∈ output,
        certificate.certificateData = joinLines v.text) :
      Concluded resolved hplain h start answer r

/-- The certificate in the answer is the one that the script outputs. -/
lemma certificateData_eq {result : Response} {certificate : CertificateDto} {v : Value}
    (hissued : issuedCertificate result = .ok certificate)
    (hstdOut : decode result.stdOut = .ok (writtenOutput [v])) :
    certificate.certificateData = joinLines v.text := by
  have hjoin : joinLines (writtenOutput [v]) = joinLines v.text := by
    by_cases hv : v = .null
    · subst hv
      rfl
    · simp [joinLines, writtenOutput, hv, String.join_cons, isLineBreak]
  rw [issuedCertificate, getCertificateData, hstdOut] at hissued
  change (if joinLines (writtenOutput [v]) = "" then _ else _) = _ at hissued
  split_ifs at hissued
  cases hissued
  exact hjoin

/-- **A request is submitted once.** Whatever the host and the authority behind it do, a
call of `issue` or `renew` sends nothing and raises, or sends the script once; when its
texts are plain, the literals of the script denote them, the calls of the script are those
of one submission of the request, for the authority and the template of the profile, and
what is returned is the certificate of this submission, fetched after the authority has
granted it. -/
theorem issue_submits_once {m : Session CertificateDto} {requestDto : RenewRequest}
    (hm : m = issue env requestDto.toIssueRequest uuid ∨ m = renew env requestDto uuid)
    {w w' : Wire} {r : Except PyError CertificateDto} (hrun : m w = some (r, w')) :
    (w' = w ∧ ∃ e, r = .error e) ∨
      ∃ resolved : Resolved env requestDto.toIssueRequest uuid,
        w'.sent = w.sent ++ [resolved.script] ∧
          ∀ hplain : resolved.PlainTexts,
            (resolved.program hplain).print "" = resolved.script ∧
            (ScriptInput.submit resolved.request resolved.ca resolved.template
              env.issuePollingInterval env.issuePollingTimeout).Denoted ∧
            ∀ {ω : Type} (h : Callee ω) (state : Wire → ω),
              Executes resolved.host h state (resolved.program hplain) →
                Concluded resolved hplain h (state (opened w)) (resolved.answer w) r := by
  have hprepare : (w' = w ∧ ∃ e, r = .error e) ∨
      prepareAndIssue env requestDto.toIssueRequest uuid w = some (r, w') := by
    rcases hm with rfl | rfl
    · exact .inr hrun
    · rcases run_lift_bind_eq_some hrun with hraised | ⟨_, -, hprepared⟩
      · exact .inl hraised
      · exact .inr hprepared
  rcases hprepare with hraised | hprepared
  · exact .inl hraised
  rcases resolved_of_prepareAndIssue hprepared with hraised | ⟨resolved, hsession⟩
  · exact .inl hraised
  rcases resolved.session_cases hsession with hraised | ⟨hsent, hanswer⟩
  · exact .inl hraised
  refine .inr ⟨resolved, hsent, fun hplain =>
    ⟨issueProgram_print .., IssueTexts.denoted ⟨_, _, _, hplain⟩ _ _,
      fun h state hexecutes => ?_⟩⟩
  rcases hanswer with ⟨e, hanswer, rfl⟩ | ⟨result, hanswer, hreturned⟩
  · exact .unanswered hanswer
  have hprint : (resolved.program hplain).print "" = resolved.script := issueProgram_print ..
  obtain ⟨fuel, outcome, st, hended, hstatus, hstdOut⟩ :=
    hexecutes (opened w) result (hprint ▸ hanswer)
  obtain ⟨calls, hends⟩ := exists_endsWith hended
  obtain ⟨hfetched, hgiven⟩ := endsWith_issueProgram hends
  cases outcome with
  | error text =>
      cases r with
      | error e => exact .givenUp hends (hgiven text rfl)
      | ok certificate => cases hstatus.mp (hreturned certificate rfl).1
  | ok =>
      obtain ⟨s, v, hpolled, hgranted, houtput, hcalls⟩ := hfetched rfl
      refine .fetched hends ⟨s, v, hpolled, hgranted, houtput, hcalls⟩ fun certificate hr => ?_
      rw [houtput, List.forall_mem_singleton]
      exact certificateData_eq (hreturned certificate hr).2 (houtput ▸ hstdOut rfl)

/-- A request that the authority grants at the first poll. -/
def grantedRequest : PendingRequest where
  submitDisposition := 5
  requestId := 42
  certificate := "MII="
  dispositions _ := 3

/-- The host in front of it. -/
def issuingHost : Host where
  debug := false
  openShell _ := .ok ()
  powershell _ _ := .ok ⟨(writtenOutput [.str "MII="]).toUTF8, .empty, 0⟩
  closeShell _ := .ok ()

/-- One authority instance, with this host. -/
def issuingEnvironment : ServiceEnvironment where
  AuthorityInstance := Unit
  authorityInstance _ := .ok ()
  session _ := .ok issuingHost
  eval _ _ := .error .syntaxError
  searchPageSize := 1000
  serialNumber _ := .ok 255
  createCms certificateRequest _ _ := .ok certificateRequest
  issuePollingInterval := 100
  issuePollingTimeout := 3000

/-- A request for the renewal of a certificate. -/
def renewalRequest : RenewRequest where
  raProfileAttributes :=
    [⟨"raprofile_select_ca_method", [.str "search"]⟩, ⟨"raprofile_ca_name", [.authority issuingCa]⟩,
      ⟨"raprofile_template_name", [.template webTemplate]⟩]
  request := "MIIB"
  format := "pkcs10"
  certificate := "MIIC"

lemma executes_issuingHost (texts : IssueTexts) (timeout : ℤ) :
    Executes issuingHost (requestHost grantedRequest) (fun _ => ⟨0, 0⟩)
      (issueProgram texts 100 timeout) := by
  intro w result hanswer
  cases hanswer
  obtain ⟨st, st', houtput, -, hrun⟩ := @run_issueProgram_succ grantedRequest 0 100 texts
    timeout (by decide) (by decide) (by decide)
  refine ⟨1, _, st, hrun.trans (if_pos rfl), iff_of_true rfl rfl, fun _ => ?_⟩
  rw [houtput]
  exact decode_toUTF8 _

/-- The renewal returns the certificate of the one submission. -/
theorem issue_submits_once_sample :
    ∃ (resolved : Resolved issuingEnvironment renewalRequest.toIssueRequest "uuid")
      (hplain : resolved.PlainTexts),
      Concluded resolved hplain (requestHost grantedRequest) ⟨0, 0⟩ (resolved.answer ⟨[], 0⟩)
        (.ok ⟨"MII=", none, none, "X.509"⟩) := by
  have hca : getCaFromAttributes renewalRequest.raProfileAttributes = .ok issuingCa := rfl
  have htemplate : getTemplateFromAttributes renewalRequest.raProfileAttributes =
      .ok webTemplate := rfl
  have hissued : issuedCertificate ⟨(writtenOutput [.str "MII="]).toUTF8, .empty, 0⟩ =
      .ok ⟨"MII=", none, none, "X.509"⟩ := by
    rw [issuedCertificate, getCertificateData, decode_toUTF8]
    rfl
  have hrun : Returns (renew issuingEnvironment renewalRequest "uuid") ⟨[], 0⟩
      ⟨"MII=", none, none, "X.509"⟩ ⟨[submitCertificateRequestScript "MIIB" issuingCa webTemplate
        100 3000], 0⟩ := by
    simp only [renew, prepareAndIssue, issueNewCertificate, returns_bind, returns_lift]
    exact ⟨_, _, ⟨rfl, rfl⟩, issuingCa, _, ⟨hca, rfl⟩, webTemplate, _, ⟨htemplate, rfl⟩, .pkcs10, _,
      ⟨rfl, rfl⟩, "MIIB", _, ⟨rfl, rfl⟩, issuingHost, _, ⟨rfl, rfl⟩, (), _, rfl, _, _,
      returns_runPs.mpr ⟨rfl, .of_decode _ (decode_toUTF8 _) rfl, rfl⟩, (), _, rfl, hissued, rfl⟩
  rcases issue_submits_once (.inr rfl) hrun with ⟨-, e, he⟩ | ⟨resolved, -, hconcluded⟩
  · cases he
  · have hplain : resolved.PlainTexts := by
      have hformat : CertificateRequestFormat.pkcs10 = resolved.format :=
        Except.ok.inj resolved.format_eq
      have hrequest : "MIIB" = resolved.request := by
        have hconvert := resolved.request_eq
        rw [← hformat] at hconvert
        exact Except.ok.inj hconvert
      rw [Resolved.PlainTexts, ← Except.ok.inj (hca.symm.trans resolved.ca_eq),
        ← Except.ok.inj (htemplate.symm.trans resolved.template_eq), ← hrequest]
      exact plain_webRequest
    have hexecutes : Executes resolved.host (requestHost grantedRequest) (fun _ => ⟨0, 0⟩)
        (resolved.program hplain) := by
      rw [show resolved.host = issuingHost from (Except.ok.inj resolved.host_eq).symm]
      exact executes_issuingHost _ _
    exact ⟨resolved, hplain, (hconcluded hplain).2.2 _ _ hexecutes⟩

end AdcsConnector
