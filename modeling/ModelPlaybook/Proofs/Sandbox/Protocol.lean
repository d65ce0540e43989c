import ModelPlaybook.Proofs.Sandbox.PlainForm
import ModelPlaybook.Proofs.Sandbox.Supervision

/-!
# The protocol of worker and supervisor

The supervisor waits for one report in each of three phases.  Whatever model logic does, and
wherever its worker stops, the reports fit what is waited for: each of them ends its phase well or
says that the worker has failed, and nothing follows a failure.  So the two agree on how an
execution ends, and what the supervisor provides for other reports is never needed.
-/

namespace ModelPlaybook.Sandbox

/-- The phases as a supervisor waits in them. -/
def Phase.inOrder : List Phase := [startup, setup, invoke]

theorem Phase.expected_ne_failed (phase : Phase) : phase.expected ≠ failed := by
  cases phase <;> decide

/-- Every limit is a number of seconds for which a pipe can be polled. -/
def TimeLimits.Bounded (limits : TimeLimits) : Prop :=
  ∀ phase : Phase, ∃ seconds, phase.seconds limits = .ok seconds

/-! ## Waiting -/

section

variable {limits : TimeLimits} {exitCode : Option Int} {phase : Phase} {rest : List Arrival}

theorem readReport_expected (phase : Phase) (body : Value) :
    readReport phase (.text phase.expected) body = .ok body := by
  have hfailed : Value.text phase.expected ≠ .text failed := fun hstatus =>
    phase.expected_ne_failed (by simpa using hstatus)
  rw [readReport, if_neg hfailed, if_pos rfl]

theorem awaitReport_arrival (hlimits : limits.Bounded) (exitCode : Option Int) (phase : Phase)
    (r : Report) (rest : List Arrival) :
    ∃ calls, awaitReport limits exitCode phase (r.arrival :: rest) =
      (readReport phase (.text r.status) r.body, calls, rest) := by
  obtain ⟨seconds, hseconds⟩ := hlimits phase
  exact ⟨[.poll seconds, .receive], by simp only [awaitReport, hseconds, Report.arrival]⟩

theorem awaitReport_ending (hlimits : limits.Bounded) :
    (awaitReport limits exitCode phase (.ending :: rest)).1 =
      .error (endingError phase exitCode) := by
  obtain ⟨seconds, hseconds⟩ := hlimits phase
  simp only [awaitReport, hseconds]

theorem awaitAll_of_error {phases : List Phase} {arrivals : List Arrival} {e : Error}
    (herror : (awaitReport limits exitCode phase arrivals).1 = .error e) :
    awaitAll limits exitCode (phase :: phases) arrivals =
      (.error e, (awaitReport limits exitCode phase arrivals).2.1) := by
  cases phases with
  | nil => exact Prod.ext herror rfl
  | cons next phases =>
      rw [awaitAll]
      split
      next e' calls later hawait =>
        rw [hawait] at herror ⊢
        cases herror
        rfl
      next body calls later hawait =>
        rw [hawait] at herror
        cases herror

theorem awaitAll_of_ok {phases : List Phase} {arrivals later : List Arrival} {body : Value}
    {calls : List Call} (hphases : phases ≠ [])
    (hawait : awaitReport limits exitCode phase arrivals = (.ok body, calls, later)) :
    awaitAll limits exitCode (phase :: phases) arrivals =
      ((awaitAll limits exitCode phases later).1,
        calls ++ (awaitAll limits exitCode phases later).2) := by
  cases phases with
  | nil => exact absurd rfl hphases
  | cons next phases => simp only [awaitAll, hawait]

/-- Waiting in phases for arrivals, the supervisor comes to wait in one of the phases, with these
arrivals still before it. -/
inductive ComesTo (limits : TimeLimits) (exitCode : Option Int) :
    List Phase → List Arrival → Phase → List Arrival → Prop where
  | now {phase : Phase} {phases : List Phase} {arrivals : List Arrival} :
      ComesTo limits exitCode (phase :: phases) arrivals phase arrivals
  | later {phase phase' : Phase} {phases : List Phase} {arrivals later arrivals' : List Arrival}
      {body : Value} {calls : List Call}
      (hawait : awaitReport limits exitCode phase arrivals = (.ok body, calls, later))
      (hlater : ComesTo limits exitCode phases later phase' arrivals') :
      ComesTo limits exitCode (phase :: phases) arrivals phase' arrivals'

/-- The supervisor goes on behind an arrival only if it is the report that ends the phase well. -/
theorem ComesTo.now_or_later {phase' : Phase} {phases : List Phase} {first : Arrival}
    {arrivals : List Arrival}
    (hcomes : ComesTo limits exitCode (phase :: phases) (first :: rest) phase' arrivals) :
    phase' = phase ∧ arrivals = first :: rest ∨
      (∃ body, first = .report (.text phase.expected) body) ∧
        ComesTo limits exitCode phases rest phase' arrivals := by
  cases hcomes with
  | now => exact .inl ⟨rfl, rfl⟩
  | @later _ _ _ _ later _ body calls hawait hlater =>
      obtain ⟨rest', harrivals, hrest⟩ := awaitReport_eq_ok (congrArg Prod.fst hawait)
      obtain ⟨rfl, rfl⟩ := List.cons.inj harrivals
      rw [hawait] at hrest
      obtain rfl : later = rest := hrest
      exact .inr ⟨⟨body, rfl⟩, hlater⟩

end

/-! ## Sessions -/

/-- How a session ends. -/
inductive Verdict where
  | fails (message : String)
  | breaksOff (phase : Phase)
  | completes (body : Value)

/-- What a supervisor makes of the end of a session. -/
def Verdict.result (exitCode : Option Int) : Verdict → Except Error Value
  | fails message => .error (.execution message)
  | breaksOff phase => .error (endingError phase exitCode)
  | completes body => .ok body

theorem Verdict.eq_completes_of_result {exitCode : Option Int} {verdict : Verdict} {body : Value}
    (hbody : verdict.result exitCode = .ok body) : verdict = .completes body := by
  cases verdict with
  | fails message => cases hbody
  | breaksOff phase => cases hbody
  | completes body' =>
      cases hbody
      rfl

/-- Reports that fit the phases in which they are waited for, and the end that they make. -/
inductive Session : List Phase → List Report → Verdict → Prop where
  | fails {phase : Phase} {phases : List Phase} (message : String) :
      Session (phase :: phases) [failure message] (.fails message)
  | breaksOff {phase : Phase} {phases : List Phase} :
      Session (phase :: phases) [] (.breaksOff phase)
  | completes {phase : Phase} (body : Value) :
      Session [phase] [⟨phase.expected, body⟩] (.completes body)
  | goesOn {phase next : Phase} {phases : List Phase} {reports : List Report} {verdict : Verdict}
      (body : Value) (hlater : Session (next :: phases) reports verdict) :
      Session (phase :: next :: phases) (⟨phase.expected, body⟩ :: reports) verdict

namespace Session

variable {phases : List Phase} {reports : List Report} {verdict : Verdict}

/-- A worker that stops early leaves a session behind as well. -/
theorem take (hsession : Session phases reports verdict) (sent : Nat) :
    ∃ verdict', Session phases (reports.take sent) verdict' := by
  induction hsession generalizing sent with
  | fails message =>
      cases sent with
      | zero => exact ⟨_, .breaksOff⟩
      | succ sent => exact ⟨_, by simpa using .fails message⟩
  | breaksOff => exact ⟨_, by simpa using .breaksOff⟩
  | completes body =>
      cases sent with
      | zero => exact ⟨_, .breaksOff⟩
      | succ sent => exact ⟨_, by simpa using .completes body⟩
  | goesOn body hlater ih =>
      cases sent with
      | zero => exact ⟨_, .breaksOff⟩
      | succ sent =>
          obtain ⟨verdict', hsent⟩ := ih sent
          exact ⟨verdict', .goesOn body hsent⟩

theorem mem_of_fails {message : String} (hsession : Session phases reports (.fails message)) :
    failure message ∈ reports := by
  generalize hverdict : Verdict.fails message = verdict at hsession
  induction hsession with
  | fails message' =>
      cases hverdict
      exact List.mem_cons_self
  | breaksOff => cases hverdict
  | completes body => cases hverdict
  | goesOn body hlater ih => exact List.mem_cons_of_mem _ (ih hverdict)

theorem eq_fails_of_mem (hsession : Session phases reports verdict) {message : String}
    (hmem : failure message ∈ reports) : verdict = .fails message := by
  have hexpected (phase : Phase) (body : Value) : failure message ≠ ⟨phase.expected, body⟩ :=
    fun hreport => phase.expected_ne_failed (congrArg Report.status hreport).symm
  induction hsession with
  | fails message' =>
      obtain ⟨rfl⟩ : message = message' := by simpa [failure] using hmem
      rfl
  | breaksOff => cases hmem
  | completes body => exact absurd (List.mem_singleton.mp hmem) (hexpected _ body)
  | goesOn body hlater ih =>
      rcases List.mem_cons.mp hmem with hreport | hmem
      · exact absurd hreport (hexpected _ body)
      · exact ih hmem

variable {limits : TimeLimits} {exitCode : Option Int}

/-- The supervisor sees a session end as it does. -/
theorem awaitAll_eq (hsession : Session phases reports verdict) (hlimits : limits.Bounded)
    (later : List Arrival) :
    (awaitAll limits exitCode phases (reports.map (·.arrival) ++ .ending :: later)).1 =
      verdict.result exitCode := by
  induction hsession with
  | @fails phase phases message =>
      obtain ⟨calls, hawait⟩ :=
        awaitReport_arrival hlimits exitCode phase (failure message) (.ending :: later)
      exact congrArg Prod.fst (awaitAll_of_error (congrArg Prod.fst hawait))
  | breaksOff => exact congrArg Prod.fst (awaitAll_of_error (awaitReport_ending hlimits))
  | @completes phase body =>
      obtain ⟨calls, hawait⟩ :=
        awaitReport_arrival hlimits exitCode phase ⟨phase.expected, body⟩ (.ending :: later)
      exact (congrArg Prod.fst hawait).trans (readReport_expected phase body)
  | @goesOn phase next phases reports verdict body hlater ih =>
      obtain ⟨calls, hawait⟩ := awaitReport_arrival hlimits exitCode phase ⟨phase.expected, body⟩
        (reports.map (·.arrival) ++ .ending :: later)
      rw [readReport_expected] at hawait
      have hlater : next :: phases ≠ [] := List.cons_ne_nil next phases
      exact (congrArg Prod.fst (awaitAll_of_ok hlater hawait)).trans ih

/-- In a session the supervisor reads no report but failures and the one that it waits for. -/
theorem status_of_comesTo (hsession : Session phases reports verdict) {later rest : List Arrival}
    {phase : Phase} {status body : Value}
    (hcomes : ComesTo limits exitCode phases (reports.map (·.arrival) ++ .ending :: later) phase
      (.report status body :: rest)) :
    status = .text failed ∨ status = .text phase.expected := by
  induction hsession with
  | @fails first phases message =>
      rcases hcomes.now_or_later with ⟨rfl, harrivals⟩ | ⟨⟨body', hexpected⟩, -⟩
      · cases harrivals
        exact .inl rfl
      · have hstatus : Value.text failed = .text first.expected := (Arrival.report.inj hexpected).1
        cases first <;> exact absurd hstatus (by decide)
  | breaksOff =>
      rcases hcomes.now_or_later with ⟨rfl, harrivals⟩ | ⟨⟨body', hexpected⟩, -⟩
      · cases harrivals
      · cases hexpected
  | completes body' =>
      rcases hcomes.now_or_later with ⟨rfl, harrivals⟩ | ⟨-, hlater⟩
      · cases harrivals
        exact .inr rfl
      · cases hlater
  | goesOn body' hlater ih =>
      rcases hcomes.now_or_later with ⟨rfl, harrivals⟩ | ⟨-, hlater⟩
      · cases harrivals
        exact .inr rfl
      · exact ih hlater

end Session

/-! ## What model logic reports -/

/-- Model logic gives outputs: the plain form of the mapping that its entry point gives. -/
def Behaviour.Gives (b : Behaviour) (outputs : Entries) : Prop :=
  b.loading = .registers ∧ ∃ c, b.invocation = .gives c ∧ c.isMapping = true ∧
    c.toPlain "outputs" = .ok (.map outputs)

theorem succeeded_ne_failure (body : Value) (message : String) :
    (⟨succeeded, body⟩ : Report) ≠ failure message := by
  intro hreport
  have hstatus : succeeded = failed := congrArg Report.status hreport
  exact absurd hstatus (by decide)

theorem reportOn_eq_succeeded {c : Cargo} {body : Value}
    (hreport : reportOn c = ⟨succeeded, body⟩) :
    c.isMapping = true ∧ c.toPlain "outputs" = .ok body := by
  rcases reportOn_cases c with ⟨message, hfailure⟩ | ⟨hmapping, plain, hplain, hsucceeded⟩
  · exact absurd (hreport.symm.trans hfailure) (succeeded_ne_failure body message)
  · cases hreport.symm.trans hsucceeded
    exact ⟨hmapping, hplain⟩

theorem Invocation.eq_gives_of_mem_reports {i : Invocation} {body : Value}
    (hreport : ⟨succeeded, body⟩ ∈ i.reports) :
    ∃ c, i = .gives c ∧ reportOn c = ⟨succeeded, body⟩ := by
  cases i with
  | raises description => exact absurd (List.mem_singleton.mp hreport) (succeeded_ne_failure body _)
  | gives c => exact ⟨c, rfl, (List.mem_singleton.mp hreport).symm⟩
  | exits code => cases hreport
  | hangs => cases hreport

theorem Invocation.exists_session (i : Invocation) :
    ∃ verdict, Session [.invoke] i.reports verdict := by
  cases i with
  | raises description => exact ⟨_, .fails _⟩
  | gives c =>
      rcases reportOn_cases c with ⟨message, hreport⟩ | ⟨-, plain, -, hreport⟩
      · exact ⟨.fails message, by simpa [reports, hreport] using .fails message⟩
      · exact ⟨.completes plain, by simpa [reports, hreport] using .completes plain⟩
  | exits code => exact ⟨_, .breaksOff⟩
  | hangs => exact ⟨_, .breaksOff⟩

namespace Behaviour

variable {b : Behaviour} {body : Value} {outputs : Entries}

theorem exists_session (b : Behaviour) : ∃ verdict, Session Phase.inOrder b.reports verdict := by
  cases hloading : b.loading with
  | raises description =>
      exact ⟨_, by simpa [reports, hloading] using .goesOn .none (.fails _)⟩
  | registersNothing =>
      exact ⟨_, by simpa [reports, hloading] using .goesOn .none (.fails _)⟩
  | registers =>
      obtain ⟨verdict, hsession⟩ := b.invocation.exists_session
      exact ⟨verdict, by simpa [reports, hloading] using .goesOn .none (.goesOn .none hsession)⟩
  | exits code => exact ⟨_, by simpa [reports, hloading] using .goesOn .none .breaksOff⟩
  | hangs => exact ⟨_, by simpa [reports, hloading] using .goesOn .none .breaksOff⟩

theorem Gives.isPlainForm (hgives : b.Gives outputs) : (Value.map outputs).IsPlainForm := by
  obtain ⟨-, c, -, -, hplain⟩ := hgives
  exact Cargo.isPlainForm_of_toPlain hplain

theorem Gives.reports_eq (hgives : b.Gives outputs) :
    b.reports = [⟨started, .none⟩, ⟨registered, .none⟩, ⟨succeeded, .map outputs⟩] := by
  obtain ⟨hloading, c, hinvocation, hmapping, hplain⟩ := hgives
  simp only [reports, hloading, hinvocation, Invocation.reports, reportOn, hmapping, if_true,
    hplain]

/-- Model logic reports success with a mapping only, which it gives. -/
theorem gives_of_mem_reports (hreport : ⟨succeeded, body⟩ ∈ b.reports) :
    ∃ outputs, body = .map outputs ∧ b.Gives outputs := by
  rcases List.mem_cons.mp hreport with hstarted | hreport
  · have hstatus : succeeded = started := congrArg Report.status hstarted
    exact absurd hstatus (by decide)
  · cases hloading : b.loading with
    | raises description | registersNothing =>
        rw [hloading] at hreport
        exact absurd (List.mem_singleton.mp hreport) (succeeded_ne_failure body _)
    | registers =>
        rw [hloading] at hreport
        rcases List.mem_cons.mp hreport with hregistered | hreport
        · have hstatus : succeeded = registered := congrArg Report.status hregistered
          exact absurd hstatus (by decide)
        · obtain ⟨c, hinvocation, hc⟩ := Invocation.eq_gives_of_mem_reports hreport
          obtain ⟨hmapping, hplain⟩ := reportOn_eq_succeeded hc
          obtain ⟨outputs, rfl⟩ := Cargo.exists_map_of_toPlain hmapping hplain
          exact ⟨outputs, rfl, hloading, c, hinvocation, hmapping, hplain⟩
    | exits code | hangs =>
        rw [hloading] at hreport
        cases hreport

end Behaviour

/-! ## Executions -/

theorem execute_of_accepted {limits : TimeLimits} {worker : String → Value → Worker}
    {payload inputs plain : Value} {text : String}
    (haccepted : accept payload inputs = .ok (text, plain)) :
    execute limits worker payload inputs =
      let w := worker text plain
      let waiting := awaitAll limits w.exitCode Phase.inOrder w.arrivals
      ⟨waiting.1.bind outputsOf,
        [.process text plain, .start, .closeSender] ++ waiting.2 ++ dispose w.alive⟩ := by
  simp only [execute, haccepted]
  rfl

/-- Outputs that an execution ends with are what the model logic gives. -/
theorem gives_of_execute {limits : TimeLimits} {worker : String → Value → Worker}
    {behaviour : String → Value → Behaviour} {payload inputs : Value} {outputs : Entries}
    (hshows : ∀ text plain, (worker text plain).Shows (behaviour text plain))
    (houtputs : (execute limits worker payload inputs).result = .ok outputs) :
    ∃ text plain, accept payload inputs = .ok (text, plain) ∧
      (behaviour text plain).Gives outputs := by
  obtain ⟨text, plain, haccepted, hreported⟩ := reported_of_execute houtputs
  obtain ⟨⟨status, body⟩, hr, hstatus, hbody⟩ := hshows text plain _ _ hreported
  have hsame : succeeded = status := by simpa using hstatus
  have hmap : .map outputs = body := hbody
  subst hsame hmap
  obtain ⟨outputs', houtputs, hgives⟩ := Behaviour.gives_of_mem_reports hr
  obtain rfl := Value.map.inj houtputs
  exact ⟨text, plain, haccepted, hgives⟩

/-- A worker sends the first of the reports of model logic, and then the pipe ends. -/
def Worker.Sends (w : Worker) (b : Behaviour) (sent : Nat) : Prop :=
  ∃ later, w.arrivals = (b.reports.take sent).map (·.arrival) ++ .ending :: later

theorem Behaviour.sends_dyingWorker (b : Behaviour) (sent : Nat) (exitCode : Option Int) :
    (b.dyingWorker sent exitCode).Sends b sent :=
  ⟨[], rfl⟩

theorem Behaviour.sends_worker {b : Behaviour} {code : Int} (hends : b.exitCode? = some code) :
    b.worker.Sends b b.reports.length := by
  refine ⟨[], ?_⟩
  simp only [Behaviour.worker, hends, List.take_length]

theorem Session.eq_of_completes {reports : List Report} {body : Value}
    (hsession : Session Phase.inOrder reports (.completes body)) :
    reports.length = 3 ∧ ⟨succeeded, body⟩ ∈ reports := by
  cases hsession with
  | goesOn first hlater =>
      cases hlater with
      | goesOn second hlater =>
          cases hlater with
          | completes body => exact ⟨rfl, by simp [Phase.expected]⟩

/-- The first reports of model logic complete a session only if they are all there, and then they
give its outputs. -/
theorem Behaviour.gives_of_completes {b : Behaviour} {sent : Nat} {body : Value}
    (hsession : Session Phase.inOrder (b.reports.take sent) (.completes body)) :
    b.reports.length ≤ sent ∧ ∃ outputs, body = .map outputs ∧ b.Gives outputs := by
  obtain ⟨hlength, hreport⟩ := hsession.eq_of_completes
  obtain ⟨outputs, hbody, hgives⟩ := gives_of_mem_reports (List.mem_of_mem_take hreport)
  have hall : b.reports.length = 3 := by
    rw [hgives.reports_eq]
    rfl
  rw [List.length_take] at hlength
  exact ⟨by omega, outputs, hbody, hgives⟩

theorem Behaviour.Gives.session {b : Behaviour} {outputs : Entries} {sent : Nat}
    (hgives : b.Gives outputs) (hsent : b.reports.length ≤ sent) :
    Session Phase.inOrder (b.reports.take sent) (.completes (.map outputs)) := by
  rw [List.take_of_length_le hsent, hgives.reports_eq]
  exact .goesOn .none (.goesOn .none (.completes (.map outputs)))

theorem exists_message_of_session {exitCode : Option Int} {b : Behaviour} {sent : Nat}
    {verdict : Verdict} {e : Error} (hsession : Session Phase.inOrder (b.reports.take sent) verdict)
    (herror : (verdict.result exitCode).bind outputsOf = .error e) :
    ∃ message, e = .execution message ∧
      (failure message ∈ b.reports.take sent ∨ ∃ phase, e = endingError phase exitCode) := by
  cases verdict with
  | fails message =>
      cases herror
      exact ⟨message, rfl, .inl hsession.mem_of_fails⟩
  | breaksOff phase =>
      cases herror
      exact ⟨_, rfl, .inr ⟨phase, rfl⟩⟩
  | completes body =>
      obtain ⟨-, outputs, rfl, -⟩ := Behaviour.gives_of_completes hsession
      cases herror

section

variable {limits : TimeLimits} {b : Behaviour} {sent : Nat} {verdict : Verdict}

theorem awaitAll_of_sends {w : Worker} (hlimits : limits.Bounded) (hsends : w.Sends b sent)
    (hsession : Session Phase.inOrder (b.reports.take sent) verdict) :
    (awaitAll limits w.exitCode Phase.inOrder w.arrivals).1 = verdict.result w.exitCode := by
  obtain ⟨later, harrivals⟩ := hsends
  rw [harrivals]
  exact hsession.awaitAll_eq hlimits later

theorem result_of_sends {worker : String → Value → Worker} {payload inputs plain : Value}
    {text : String} (hlimits : limits.Bounded)
    (haccepted : accept payload inputs = .ok (text, plain))
    (hsends : (worker text plain).Sends b sent)
    (hsession : Session Phase.inOrder (b.reports.take sent) verdict) :
    (execute limits worker payload inputs).result =
      (verdict.result (worker text plain).exitCode).bind outputsOf := by
  have hawait := awaitAll_of_sends hlimits hsends hsession
  simp only [execute, haccepted]
  exact congrArg (·.bind outputsOf) hawait

end

/-- Worker and supervisor agree on an execution that ends with a result, of which the worker has
sent the first reports. -/
structure Agreement (limits : TimeLimits) (w : Worker) (b : Behaviour) (sent : Nat)
    (result : Except Error Entries) : Prop where
  /-- The supervisor gives outputs just if model logic does and all its reports have been sent. -/
  success : ∀ outputs, result = .ok outputs ↔ b.Gives outputs ∧ b.reports.length ≤ sent
  /-- A failure is passed on as it was reported. -/
  told : ∀ message, failure message ∈ b.reports.take sent → result = .error (.execution message)
  /-- Whatever else happens is an error of the execution: a failure that was reported, or the end of
  the worker. -/
  error : ∀ e, result = .error e → ∃ message, e = .execution message ∧
    (failure message ∈ b.reports.take sent ∨ ∃ phase, e = endingError phase w.exitCode)
  /-- No report is unexpected where it is read. -/
  status : ∀ phase status body rest,
    ComesTo limits w.exitCode Phase.inOrder w.arrivals phase (.report status body :: rest) →
      status = .text failed ∨ status = .text phase.expected
  /-- What the last phase ends well with is a mapping. -/
  mapping : ∀ body, (awaitAll limits w.exitCode Phase.inOrder w.arrivals).1 = .ok body →
    ∃ outputs, body = .map outputs

/-- Whatever model logic does and wherever its worker dies, worker and supervisor agree. -/
theorem execute_agrees {limits : TimeLimits} (worker : String → Value → Worker)
    {payload inputs plain : Value} {text : String} {b : Behaviour} {sent : Nat}
    (hlimits : limits.Bounded) (haccepted : accept payload inputs = .ok (text, plain))
    (hsends : (worker text plain).Sends b sent) :
    Agreement limits (worker text plain) b sent (execute limits worker payload inputs).result := by
  obtain ⟨whole, hwhole⟩ := b.exists_session
  obtain ⟨verdict, hsession⟩ := hwhole.take sent
  have hresult := result_of_sends hlimits haccepted hsends hsession
  constructor
  case success =>
    intro outputs
    constructor
    · intro houtputs
      rw [hresult] at houtputs
      obtain ⟨body, hbody, houtputs⟩ := bind_eq_ok.mp houtputs
      obtain rfl := Verdict.eq_completes_of_result hbody
      obtain ⟨hsent, outputs', rfl, hgives⟩ := Behaviour.gives_of_completes hsession
      cases houtputs
      exact ⟨hgives, hsent⟩
    · rintro ⟨hgives, hsent⟩
      rw [result_of_sends hlimits haccepted hsends (hgives.session hsent)]
      rfl
  case told =>
    intro message hmem
    rw [hresult, hsession.eq_fails_of_mem hmem]
    rfl
  case error =>
    intro e herror
    rw [hresult] at herror
    exact exists_message_of_session hsession herror
  case status =>
    intro phase status body rest hcomes
    obtain ⟨later, harrivals⟩ := hsends
    rw [harrivals] at hcomes
    exact hsession.status_of_comesTo hcomes
  case mapping =>
    intro body hbody
    rw [awaitAll_of_sends hlimits hsends hsession] at hbody
    obtain rfl := Verdict.eq_completes_of_result hbody
    obtain ⟨-, outputs, hmap, -⟩ := Behaviour.gives_of_completes hsession
    exact ⟨outputs, hmap⟩

def totalling : Behaviour where
  loading := .registers
  invocation := .gives (.ofValue (.frozenMap [(.text "total", .int 3)]))

theorem totalling_agrees :
    TimeLimits.Bounded {} ∧ accept (.text "") (.map []) = .ok ("", .map []) ∧
      (totalling.dyingWorker 3 (some 0)).Sends totalling 3 ∧
      (execute {} (fun _ _ => totalling.dyingWorker 3 (some 0)) (.text "") (.map [])).result =
        .ok [(.text "total", .int 3)] := by
  have hlimits : TimeLimits.Bounded {} := by
    intro phase
    cases phase <;> exact ⟨_, rfl⟩
  have haccepted : accept (.text "") (.map []) = .ok ("", .map []) := rfl
  have hsends := totalling.sends_dyingWorker 3 (some 0)
  have hgives : totalling.Gives [(.text "total", .int 3)] :=
    ⟨rfl, .ofValue (.frozenMap [(.text "total", .int 3)]), rfl, rfl, rfl⟩
  have hagrees : Agreement {} (totalling.dyingWorker 3 (some 0)) totalling 3
      (execute {} (fun _ _ => totalling.dyingWorker 3 (some 0)) (.text "") (.map [])).result :=
    execute_agrees (fun _ _ => totalling.dyingWorker 3 (some 0)) hlimits haccepted hsends
  exact ⟨hlimits, haccepted, hsends, (hagrees.success _).mpr ⟨hgives, Nat.le_refl 3⟩⟩

end ModelPlaybook.Sandbox
