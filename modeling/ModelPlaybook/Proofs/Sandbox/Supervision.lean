import ModelPlaybook.Proofs.Sandbox.Plain
import ModelPlaybook.Sandbox.Worker

/-!
# What supervision gives

A supervisor takes any text and any mapping of plain inputs.  Whatever the worker then does, no
failure of the execution is a broken contract, and outputs are plain if the worker reports nothing
but plain outputs.  Workers that run model logic do so, whether they finish or die.
-/

namespace ModelPlaybook.Sandbox

/-- Every output that a worker reports has a plain form. -/
def Worker.ReportsPlain (w : Worker) : Prop :=
  ∀ body, .report (.text succeeded) body ∈ w.arrivals → ∃ path plain, body.toPlain path = .ok plain

/-! ## Arguments -/

theorem accept_eq_ok_iff {payload inputs plain : Value} {text : String} :
    accept payload inputs = .ok (text, plain) ↔
      payload.text? = some text ∧ inputs.entries?.isSome = true ∧
        inputs.toPlain "inputs" = .ok plain := by
  unfold accept
  cases payload.text? with
  | none => simp
  | some text' =>
      cases inputs.entries? with
      | none => simp
      | some entries => cases inputs.toPlain "inputs" <;> simp

theorem accept_of_plain {inputs : Entries} (hinputs : inputs.IsPlain) (logic : String) :
    ∃ plain, accept (.text logic) (.map inputs) = .ok (logic, plain) := by
  obtain ⟨plain, hplain⟩ := (Value.isPlain_map_iff.mpr hinputs).exists_toPlain "inputs"
  exact ⟨plain, accept_eq_ok_iff.mpr ⟨rfl, rfl, hplain⟩⟩

/-! ## Reports -/

section

variable {limits : TimeLimits} {exitCode : Option Int} {phase : Phase} {arrivals : List Arrival}

theorem isContract_of_readReport {status body : Value} {e : Error}
    (herror : readReport phase status body = .error e) :
    e.isContract = false := by
  unfold readReport at herror
  split at herror
  · cases herror
    rfl
  · split at herror
    · cases herror
    · cases herror
      unfold unexpectedError
      split <;> rfl

theorem eq_of_readReport {status body v : Value} (hbody : readReport phase status body = .ok v) :
    status = .text phase.expected ∧ body = v := by
  unfold readReport at hbody
  split at hbody
  · cases hbody
  · split at hbody
    next hexpected =>
      cases hbody
      exact ⟨hexpected, rfl⟩
    · cases hbody

theorem isContract_of_awaitReport {e : Error}
    (herror : (awaitReport limits exitCode phase arrivals).1 = .error e) :
    e.isContract = false := by
  unfold awaitReport at herror
  split at herror
  · cases herror
    rfl
  · have hsilent : (silenceError phase (phase.limit limits)).isContract = false := by
      cases phase <;> rfl
    split at herror
    · cases herror
      exact hsilent
    · cases herror
      exact hsilent
    · cases herror
      rfl
    · exact isContract_of_readReport herror
    · cases herror
      rfl

/-- A phase ends well with the report that it waits for, and with nothing else. -/
theorem awaitReport_eq_ok {v : Value}
    (hbody : (awaitReport limits exitCode phase arrivals).1 = .ok v) :
    ∃ rest, arrivals = .report (.text phase.expected) v :: rest ∧
      (awaitReport limits exitCode phase arrivals).2.2 = rest := by
  unfold awaitReport at hbody ⊢
  split at hbody
  · cases hbody
  · split at hbody
    · cases hbody
    · cases hbody
    · cases hbody
    next status body rest =>
      obtain ⟨rfl, rfl⟩ := eq_of_readReport hbody
      exact ⟨rest, rfl, rfl⟩
    · cases hbody

theorem isContract_of_awaitAll {phases : List Phase} {e : Error}
    (herror : (awaitAll limits exitCode phases arrivals).1 = .error e) :
    e.isContract = false := by
  fun_induction awaitAll limits exitCode phases arrivals with
  | case1 => cases herror
  | case2 phase arrivals result calls _ hawait =>
      have hresult := congrArg Prod.fst hawait
      exact isContract_of_awaitReport (hresult.trans herror)
  | case3 phase _ _ arrivals e' calls _ hawait =>
      cases herror
      exact isContract_of_awaitReport (congrArg Prod.fst hawait)
  | case4 _ _ _ _ _ _ _ _ _ _ hmore ih =>
      rw [hmore] at ih
      exact ih herror

/-- What the last phase ends well with has been reported. -/
theorem mem_of_awaitAll {phases : List Phase} {v : Value}
    (hlast : phases.getLast? = some phase)
    (hbody : (awaitAll limits exitCode phases arrivals).1 = .ok v) :
    .report (.text phase.expected) v ∈ arrivals := by
  -- Each phase but the last one takes its own report off the front and leaves the rest as it is.
  fun_induction awaitAll limits exitCode phases arrivals with
  | case1 => cases hlast
  | case2 first arrivals result calls _ hawait =>
      cases hlast
      obtain ⟨rest, rfl, -⟩ := awaitReport_eq_ok ((congrArg Prod.fst hawait).trans hbody)
      exact List.mem_cons_self
  | case3 => cases hbody
  | case4 first next rest arrivals body calls later hawait result more hmore ih =>
      obtain ⟨later', rfl, hlater⟩ := awaitReport_eq_ok (congrArg Prod.fst hawait)
      rw [hawait] at hlater
      obtain rfl : later = later' := hlater
      rw [hmore] at ih
      rw [List.getLast?_cons_cons] at hlast
      exact List.mem_cons_of_mem _ (ih hlast hbody)

end

/-! ## Executions -/

section

variable {limits : TimeLimits} {worker : String → Value → Worker}

/-- An execution whose arguments are taken does not break a contract. -/
theorem isContract_of_execute {payload inputs plain : Value} {text : String} {e : Error}
    (haccepted : accept payload inputs = .ok (text, plain))
    (herror : (execute limits worker payload inputs).result = .error e) :
    e.isContract = false := by
  simp only [execute, haccepted] at herror
  rcases bind_eq_error.mp herror with herror | ⟨body, -, herror⟩
  · exact isContract_of_awaitAll herror
  · unfold outputsOf at herror
    split at herror
    · cases herror
    · cases herror
      rfl

/-- An execution that ends with outputs has taken its arguments, and its worker reported them. -/
theorem reported_of_execute {payload inputs : Value} {outputs : Entries}
    (houtputs : (execute limits worker payload inputs).result = .ok outputs) :
    ∃ text plain, accept payload inputs = .ok (text, plain) ∧
      .report (.text succeeded) (.map outputs) ∈ (worker text plain).arrivals := by
  cases haccepted : accept payload inputs with
  | error e =>
      simp only [execute, haccepted] at houtputs
      cases houtputs
  | ok arguments =>
      obtain ⟨text, plain⟩ := arguments
      simp only [execute, haccepted] at houtputs
      obtain ⟨body, hbody, houtputs⟩ := bind_eq_ok.mp houtputs
      have hreported : .report (.text Phase.invoke.expected) body ∈ (worker text plain).arrivals :=
        mem_of_awaitAll rfl hbody
      unfold outputsOf at houtputs
      split at houtputs
      · cases houtputs
        exact ⟨text, plain, rfl, hreported⟩
      · cases houtputs

/-- A worker that reports plain outputs gives an execution plain outputs. -/
theorem isPlain_of_execute {payload inputs : Value} {outputs : Entries}
    (hworker : ∀ text plain, (worker text plain).ReportsPlain)
    (houtputs : (execute limits worker payload inputs).result = .ok outputs) :
    outputs.IsPlain := by
  obtain ⟨text, plain, -, hreported⟩ := reported_of_execute houtputs
  obtain ⟨path, form, hform⟩ := hworker text plain _ hreported
  exact Value.isPlain_map_iff.mp (Value.isPlain_of_toPlain hform).1

end

/-! ## Workers that run model logic -/

/-- A report on outputs carries their plain form; any other report on an entry point is a
failure. -/
theorem reportOn_cases (c : Cargo) :
    (∃ message, reportOn c = failure message) ∨
      c.isMapping = true ∧
        ∃ plain, c.toPlain "outputs" = .ok plain ∧ reportOn c = ⟨succeeded, plain⟩ := by
  unfold reportOn
  split
  next hmapping =>
    split
    next plain hplain => exact .inr ⟨hmapping, plain, hplain, rfl⟩
    next => exact .inl ⟨_, rfl⟩
  next => exact .inl ⟨_, rfl⟩

theorem Invocation.mem_reports {i : Invocation} {r : Report} (hr : r ∈ i.reports) :
    (∃ message, r = failure message) ∨
      ∃ c plain, Cargo.toPlain "outputs" c = .ok plain ∧ r = ⟨succeeded, plain⟩ := by
  cases i with
  | raises description => exact .inl ⟨_, List.mem_singleton.mp hr⟩
  | gives c =>
      obtain rfl := List.mem_singleton.mp hr
      rcases reportOn_cases c with hfailure | ⟨-, plain, hplain, hreport⟩
      · exact .inl hfailure
      · exact .inr ⟨c, plain, hplain, hreport⟩
  | exits code => cases hr
  | hangs => cases hr

/-- All that model logic can make a worker report. -/
theorem Behaviour.mem_reports {b : Behaviour} {r : Report} (hr : r ∈ b.reports) :
    r = ⟨started, .none⟩ ∨ r = ⟨registered, .none⟩ ∨ (∃ message, r = failure message) ∨
      ∃ c plain, Cargo.toPlain "outputs" c = .ok plain ∧ r = ⟨succeeded, plain⟩ := by
  rcases List.mem_cons.mp hr with rfl | hr
  · exact .inl rfl
  · cases hloading : b.loading with
    | raises description =>
        rw [hloading] at hr
        exact .inr (.inr (.inl ⟨_, List.mem_singleton.mp hr⟩))
    | registersNothing =>
        rw [hloading] at hr
        exact .inr (.inr (.inl ⟨_, List.mem_singleton.mp hr⟩))
    | registers =>
        rw [hloading] at hr
        rcases List.mem_cons.mp hr with rfl | hr
        · exact .inr (.inl rfl)
        · exact .inr (.inr (Invocation.mem_reports hr))
    | exits code =>
        rw [hloading] at hr
        cases hr
    | hangs =>
        rw [hloading] at hr
        cases hr

theorem Behaviour.isPlain_of_mem_reports {b : Behaviour} {r : Report} (hr : r ∈ b.reports)
    (hstatus : r.status = succeeded) :
    r.body.IsPlain := by
  rcases Behaviour.mem_reports hr with rfl | rfl | ⟨message, rfl⟩ | ⟨c, plain, hplain, rfl⟩
  · exact absurd hstatus (by decide)
  · exact absurd hstatus (by decide)
  · have hfailed : failed = succeeded := hstatus
    exact absurd hfailed (by decide)
  · exact (Cargo.isPlain_of_toPlain hplain).2

/-- Every report that arrives is one of the reports of model logic. -/
def Worker.Shows (w : Worker) (b : Behaviour) : Prop :=
  ∀ status body, .report status body ∈ w.arrivals →
    ∃ r ∈ b.reports, status = .text r.status ∧ body = r.body

section

variable {b : Behaviour} {w : Worker}

theorem Worker.Shows.reportsPlain (hshows : w.Shows b) : w.ReportsPlain := by
  intro body hreported
  obtain ⟨r, hr, hstatus, rfl⟩ := hshows _ _ hreported
  have hsucceeded : succeeded = r.status := by simpa using hstatus
  have hplain := (Behaviour.isPlain_of_mem_reports hr hsucceeded.symm).exists_toPlain ""
  exact ⟨"", hplain⟩

theorem Worker.Shows.of_arrivals {reports : List Report} {later : List Arrival}
    (hreports : ∀ r ∈ reports, r ∈ b.reports) (hlater : ∀ arrival ∈ later, arrival = .ending)
    (harrivals : w.arrivals = reports.map (·.arrival) ++ later) :
    w.Shows b := by
  intro status body hreported
  rw [harrivals] at hreported
  rcases List.mem_append.mp hreported with hsent | hending
  · obtain ⟨r, hr, harrival⟩ := List.mem_map.mp hsent
    obtain ⟨rfl, rfl⟩ := Arrival.report.inj harrival
    exact ⟨r, hreports r hr, rfl, rfl⟩
  · cases hlater _ hending

end

theorem Behaviour.shows_worker (b : Behaviour) : b.worker.Shows b := by
  cases hends : b.exitCode? with
  | some code =>
      have harrivals : b.worker.arrivals = b.reports.map (·.arrival) ++ [.ending] := by
        simp only [Behaviour.worker, hends]
      exact .of_arrivals (fun _ hr => hr) (fun _ => List.mem_singleton.mp) harrivals
  | none =>
      have harrivals : b.worker.arrivals = b.reports.map (·.arrival) ++ [] := by
        simp only [Behaviour.worker, hends, List.append_nil]
      exact .of_arrivals (fun _ hr => hr) (by simp) harrivals

theorem Behaviour.reportsPlain_worker (b : Behaviour) : b.worker.ReportsPlain :=
  b.shows_worker.reportsPlain

/-- A worker that dies has sent nothing but the first of its reports. -/
theorem Behaviour.shows_dyingWorker (b : Behaviour) (sent : Nat) (exitCode : Option Int) :
    (b.dyingWorker sent exitCode).Shows b :=
  .of_arrivals (fun _ => List.mem_of_mem_take) (fun _ => List.mem_singleton.mp) rfl

end ModelPlaybook.Sandbox
