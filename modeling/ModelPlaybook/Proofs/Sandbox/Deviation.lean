import ModelPlaybook.Proofs.Sandbox.Protocol

/-!
# The first deviation of a worker

Nothing is known of what arrives over a pipe: it can come late or not at all, in another order, or
more than once.  In each phase the supervisor meets one thing, which is the report that ends the
phase well or a deviation.  The first deviation alone decides how an execution fails, and what
arrives behind it is never read.

Two deviations are no errors of the execution but faults that come out as they are: a limit that is
no number of seconds, and a status that cannot be written into the message about it.  A status that
cannot even be compared is one of the latter.
-/

namespace ModelPlaybook.Sandbox

def Phase.index : Phase → Nat
  | startup => 0
  | setup => 1
  | invoke => 2

theorem Phase.getElem?_inOrder {i : Nat} {phase : Phase} :
    Phase.inOrder[i]? = some phase ↔ i = phase.index := by
  rcases i with _ | _ | _ | i <;> cases phase <;> simp [inOrder, index]

theorem Phase.inOrder_eq (phase : Phase) :
    Phase.inOrder = Phase.inOrder.take phase.index ++
      phase :: Phase.inOrder.drop (phase.index + 1) := by
  cases phase <;> rfl

/-- What the supervisor meets in a phase: the next arrival, or silence if none is left.  A limit
that is no number of seconds is a fault before it can meet anything. -/
def met (limits : TimeLimits) (phase : Phase) (arrivals : List Arrival) : Except Fault Arrival :=
  (phase.seconds limits).map fun _ => arrivals.headD .silence

/-- The phase ends well, with the report that the supervisor waits for. -/
def EndsWell (limits : TimeLimits) (phase : Phase) (arrivals : List Arrival) : Prop :=
  ∃ body, met limits phase arrivals = .ok (.report (.text phase.expected) body)

/-- Whatever else is met in a phase is a deviation, and its kind depends on the phase. -/
inductive Deviates (limits : TimeLimits) (exitCode : Option Int) :
    Phase → Except Fault Arrival → Error → Prop where
  | limit (phase : Phase) (f : Fault) : Deviates limits exitCode phase (.error f) (.fault f)
  | lateStart :
      Deviates limits exitCode .startup (.ok .silence)
        (.execution ("Sandbox worker did not start within " ++ limits.startup.plainText ++ "ms"))
  | timeout {phase : Phase} (hlater : phase ≠ .startup) :
      Deviates limits exitCode phase (.ok .silence) (.timeout phase.name limits.later)
  | ending (phase : Phase) :
      Deviates limits exitCode phase (.ok .ending)
        (.execution ("Sandbox worker exited unexpectedly during " ++ phase.name ++
          " (exit code " ++ exitText exitCode ++ ")"))
  | failed (phase : Phase) (body : Value) :
      Deviates limits exitCode phase (.ok (.report (.text Sandbox.failed) body))
        (.execution body.plainText)
  | unexpected {phase : Phase} {status : Value} (hfailed : status ≠ .text Sandbox.failed)
      (hexpected : status ≠ .text phase.expected) (hwritable : status.writeFault? = none)
      (body : Value) :
      Deviates limits exitCode phase (.ok (.report status body))
        (.execution ("Unexpected sandbox message " ++ status.shown ++ " during " ++ phase.name))
  | unwritable {phase : Phase} {status : Value} {f : Fault} (hfault : status.writeFault? = some f)
      (body : Value) : Deviates limits exitCode phase (.ok (.report status body)) (.fault f)
  | noMapping {body : Value} (hbody : ∀ outputs, body ≠ .map outputs) :
      Deviates limits exitCode .invoke (.ok (.report (.text succeeded) body))
        (.execution "Model logic must return a mapping containing output values")
  | garbled (phase : Phase) (f : Fault) :
      Deviates limits exitCode phase (.ok (.garbled f)) (.fault f)

/-! ## One phase -/

section

variable {limits : TimeLimits} {exitCode : Option Int} {phase : Phase}
  {arrivals arrivals' : List Arrival}

theorem readReport_of_failed (phase : Phase) (body : Value) :
    readReport phase (.text failed) body = .error (.execution body.plainText) := by
  rw [readReport, if_pos rfl]

theorem readReport_of_unexpected {status : Value} (hfailed : status ≠ .text failed)
    (hexpected : status ≠ .text phase.expected) (body : Value) :
    readReport phase status body = .error (unexpectedError phase status) := by
  rw [readReport, if_neg hfailed, if_neg hexpected]

theorem unexpectedError_of_writable {status : Value} (hwritable : status.writeFault? = none)
    (phase : Phase) :
    unexpectedError phase status =
      .execution ("Unexpected sandbox message " ++ status.shown ++ " during " ++ phase.name) := by
  rw [unexpectedError, Value.writeShown, hwritable]

theorem readReport_of_unwritable {status : Value} {f : Fault}
    (hfault : status.writeFault? = some f) (phase : Phase) (body : Value) :
    readReport phase status body = .error (.fault f) := by
  have htext : ∀ s, status ≠ .text s := by
    rintro s rfl
    cases hfault
  rw [readReport_of_unexpected (htext _) (htext _), unexpectedError, Value.writeShown, hfault]

theorem awaitReport_of_endsWell (exitCode : Option Int) {body : Value}
    (hmet : met limits phase arrivals = .ok (.report (.text phase.expected) body)) :
    ∃ seconds, awaitReport limits exitCode phase arrivals =
      (.ok body, [.poll seconds, .receive], arrivals.drop 1) := by
  obtain ⟨seconds, hseconds, hfirst⟩ := map_eq_ok.mp hmet
  cases arrivals with
  | nil => cases hfirst
  | cons first rest =>
      obtain rfl : Arrival.report (.text phase.expected) body = first := hfirst
      exact ⟨seconds, by simp only [awaitReport, hseconds, readReport_expected, List.drop_one,
        List.tail_cons]⟩

theorem met_of_awaitReport {body : Value}
    (hbody : (awaitReport limits exitCode phase arrivals).1 = .ok body) :
    met limits phase arrivals = .ok (.report (.text phase.expected) body) := by
  cases hseconds : phase.seconds limits with
  | error f =>
      simp only [awaitReport, hseconds] at hbody
      cases hbody
  | ok seconds =>
      obtain ⟨rest, rfl, -⟩ := awaitReport_eq_ok hbody
      simp only [met, hseconds, Except.map, List.headD_cons]

theorem awaitReport_headD {seconds : Binary64} (hseconds : phase.seconds limits = .ok seconds)
    (exitCode : Option Int) (arrivals : List Arrival) :
    (awaitReport limits exitCode phase arrivals).1 =
        (awaitReport limits exitCode phase [arrivals.headD .silence]).1 ∧
      (awaitReport limits exitCode phase arrivals).2.1 =
        (awaitReport limits exitCode phase [arrivals.headD .silence]).2.1 := by
  cases arrivals with
  | nil => simp only [awaitReport, hseconds, List.headD_nil, and_self]
  | cons first rest => cases first <;> simp only [awaitReport, hseconds, List.headD_cons, and_self]

theorem awaitReport_of_deviates {e : Error}
    (hdeviates : Deviates limits exitCode phase (met limits phase arrivals) e) :
    (awaitReport limits exitCode phase arrivals).1 = .error e ∨
      phase = .invoke ∧ ∃ body, (awaitReport limits exitCode phase arrivals).1 = .ok body ∧
        outputsOf body = .error e := by
  cases hseconds : phase.seconds limits with
  | error f =>
      simp only [met, hseconds, Except.map] at hdeviates
      cases hdeviates
      exact .inl (by simp only [awaitReport, hseconds])
  | ok seconds =>
      simp only [met, hseconds, Except.map] at hdeviates
      rw [(awaitReport_headD hseconds exitCode arrivals).1]
      generalize arrivals.headD .silence = arrival at hdeviates
      simp only [awaitReport, hseconds]
      cases hdeviates with
      | lateStart => exact .inl rfl
      | timeout hlater =>
          cases phase with
          | startup => exact absurd rfl hlater
          | setup | invoke => exact .inl rfl
      | ending => exact .inl rfl
      | failed phase body => exact .inl (readReport_of_failed phase body)
      | unexpected hfailed hexpected hwritable body =>
          refine .inl ((readReport_of_unexpected hfailed hexpected body).trans ?_)
          rw [unexpectedError_of_writable hwritable]
      | unwritable hfault body => exact .inl (readReport_of_unwritable hfault phase body)
      | @noMapping body hbody =>
          -- The phase itself takes any body; only its use as outputs fails.
          refine .inr ⟨rfl, body, readReport_expected .invoke body, ?_⟩
          unfold outputsOf
          split
          next outputs => exact absurd rfl (hbody outputs)
          next => rfl
      | garbled => exact .inl rfl

/-- What is met in a phase is a deviation, or it ends the phase well and carries a mapping if the
phase is the last one. -/
theorem deviates_or_endsWell (limits : TimeLimits) (exitCode : Option Int) (phase : Phase)
    (arrival : Except Fault Arrival) :
    (∃ e, Deviates limits exitCode phase arrival e) ∨
      ∃ body, arrival = .ok (.report (.text phase.expected) body) ∧
        (phase = .invoke → ∃ outputs, body = .map outputs) := by
  rcases arrival with f | arrival
  · exact .inl ⟨_, .limit phase f⟩
  cases arrival with
  | silence =>
      by_cases hstartup : phase = .startup
      · subst hstartup
        exact .inl ⟨_, .lateStart⟩
      · exact .inl ⟨_, .timeout hstartup⟩
  | ending => exact .inl ⟨_, .ending phase⟩
  | garbled f => exact .inl ⟨_, .garbled phase f⟩
  | report status body =>
      by_cases hfailed : status = .text failed
      · subst hfailed
        exact .inl ⟨_, .failed phase body⟩
      by_cases hexpected : status = .text phase.expected
      · subst hexpected
        by_cases hmapping : phase = .invoke → ∃ outputs, body = .map outputs
        · exact .inr ⟨body, rfl, hmapping⟩
        · obtain ⟨rfl, hbody⟩ := Classical.not_imp.mp hmapping
          exact .inl ⟨_, .noMapping (not_exists.mp hbody)⟩
      · cases hfault : status.writeFault? with
        | none => exact .inl ⟨_, .unexpected hfailed hexpected hfault body⟩
        | some f => exact .inl ⟨_, .unwritable hfault body⟩

theorem Deviates.eq_invoke {e : Error}
    (hdeviates : Deviates limits exitCode phase (met limits phase arrivals) e)
    (hwell : EndsWell limits phase arrivals) :
    phase = .invoke := by
  obtain ⟨body, hmet⟩ := hwell
  rcases awaitReport_of_deviates hdeviates with hawait | ⟨hinvoke, -⟩
  · obtain ⟨seconds, hawait'⟩ := awaitReport_of_endsWell exitCode hmet
    rw [hawait'] at hawait
    cases hawait
  · exact hinvoke

theorem awaitReport_congr (exitCode : Option Int)
    (hmet : met limits phase arrivals = met limits phase arrivals') :
    (awaitReport limits exitCode phase arrivals).1 =
        (awaitReport limits exitCode phase arrivals').1 ∧
      (awaitReport limits exitCode phase arrivals).2.1 =
        (awaitReport limits exitCode phase arrivals').2.1 := by
  cases hseconds : phase.seconds limits with
  | error f => simp only [awaitReport, hseconds, and_self]
  | ok seconds =>
      simp only [met, hseconds, Except.map, Except.ok.injEq] at hmet
      have hfirst := awaitReport_headD hseconds exitCode arrivals
      have hfirst' := awaitReport_headD hseconds exitCode arrivals'
      rw [hfirst.1, hfirst.2, hfirst'.1, hfirst'.2, hmet]
      exact ⟨rfl, rfl⟩

theorem count_receive_awaitReport_le (limits : TimeLimits) (exitCode : Option Int) (phase : Phase)
    (arrivals : List Arrival) :
    (awaitReport limits exitCode phase arrivals).2.1.count .receive ≤ 1 := by
  unfold awaitReport
  split
  · exact Nat.zero_le 1
  · split <;> simp

/-! ## One phase after the other -/

/-- Phases that end well take one report each, and the others go on with what is left. -/
theorem awaitAll_append_of_endsWell (exitCode : Option Int) (phase : Phase) (later : List Phase)
    {before : List Phase}
    (hwell : ∀ i earlier, before[i]? = some earlier → EndsWell limits earlier (arrivals.drop i)) :
    ∃ calls, calls.count .receive = before.length ∧
      awaitAll limits exitCode (before ++ phase :: later) arrivals =
        ((awaitAll limits exitCode (phase :: later) (arrivals.drop before.length)).1,
          calls ++
            (awaitAll limits exitCode (phase :: later) (arrivals.drop before.length)).2) := by
  induction before generalizing arrivals with
  | nil => exact ⟨[], rfl, rfl⟩
  | cons first before ih =>
      have hfirst : EndsWell limits first arrivals := hwell 0 first rfl
      obtain ⟨body, hmet⟩ := hfirst
      obtain ⟨seconds, hawait⟩ := awaitReport_of_endsWell exitCode hmet
      have hlater : ∀ i earlier, before[i]? = some earlier →
          EndsWell limits earlier ((arrivals.drop 1).drop i) := by
        intro i earlier hearlier
        rw [List.drop_drop, Nat.add_comm]
        exact hwell (i + 1) earlier hearlier
      obtain ⟨calls, hcount, hrest⟩ := ih hlater
      refine ⟨[.poll seconds, .receive] ++ calls, ?_, ?_⟩
      · simp [hcount]
      · have hphases : before ++ phase :: later ≠ [] := by simp
        rw [List.cons_append, awaitAll_of_ok hphases hawait, hrest, List.drop_drop,
          Nat.add_comm 1, List.append_assoc, List.length_cons]

/-- The supervisor looks at an arrival only if the phases before it have all ended well. -/
theorem awaitAll_congr {phases : List Phase}
    (hmet : ∀ i phase, phases[i]? = some phase →
      (∀ j earlier, j < i → phases[j]? = some earlier →
        EndsWell limits earlier (arrivals.drop j)) →
      met limits phase (arrivals.drop i) = met limits phase (arrivals'.drop i)) :
    awaitAll limits exitCode phases arrivals = awaitAll limits exitCode phases arrivals' := by
  -- The first phase meets the same on both sides.  If it ends well, each side has lost one arrival.
  induction phases generalizing arrivals arrivals' with
  | nil => rfl
  | cons first phases ih =>
      have hfirst : met limits first arrivals = met limits first arrivals' :=
        hmet 0 first rfl fun j earlier hj => absurd hj (Nat.not_lt_zero j)
      obtain ⟨hresult, hcalls⟩ := awaitReport_congr exitCode hfirst
      cases hawait : (awaitReport limits exitCode first arrivals).1 with
      | error e =>
          rw [awaitAll_of_error hawait, awaitAll_of_error (hresult.symm.trans hawait),
            hcalls]
      | ok body =>
          have hwell := met_of_awaitReport hawait
          have hwell' := met_of_awaitReport (hresult.symm.trans hawait)
          obtain ⟨seconds, hfull⟩ := awaitReport_of_endsWell exitCode hwell
          obtain ⟨seconds', hfull'⟩ := awaitReport_of_endsWell exitCode hwell'
          cases phases with
          | nil => exact Prod.ext hresult hcalls
          | cons next phases =>
              have hnext : next :: phases ≠ [] := by simp
              have hrest : awaitAll limits exitCode (next :: phases) (arrivals.drop 1) =
                  awaitAll limits exitCode (next :: phases) (arrivals'.drop 1) := by
                apply ih
                intro i phase hphase hbefore
                rw [List.drop_drop, List.drop_drop, Nat.add_comm 1]
                apply hmet (i + 1) phase hphase
                intro j earlier hj hearlier
                cases j with
                | zero =>
                    cases hearlier
                    exact ⟨body, hwell⟩
                | succ j =>
                    have hwell := hbefore j earlier (Nat.lt_of_succ_lt_succ hj) hearlier
                    rw [List.drop_drop, Nat.add_comm 1] at hwell
                    exact hwell
              have hseconds : seconds = seconds' := by simpa [hfull, hfull'] using hcalls
              rw [awaitAll_of_ok hnext hfull, awaitAll_of_ok hnext hfull', hrest,
                hseconds]

end

/-! ## Executions -/

namespace Worker

/-- What the supervisor meets in a phase if the phases before it end well. -/
def met (w : Worker) (limits : TimeLimits) (phase : Phase) : Except Fault Arrival :=
  Sandbox.met limits phase (w.arrivals.drop phase.index)

/-- The three reports arrive in order, and the last one carries outputs. -/
structure Completes (w : Worker) (limits : TimeLimits) (outputs : Entries) : Prop where
  startup : ∃ body, w.met limits .startup = .ok (.report (.text started) body)
  setup : ∃ body, w.met limits .setup = .ok (.report (.text registered) body)
  invoke : w.met limits .invoke = .ok (.report (.text succeeded) (.map outputs))

/-- A phase is the first one in which the supervisor meets a deviation. -/
structure DeviatesFirst (w : Worker) (limits : TimeLimits) (phase : Phase) (e : Error) : Prop where
  before : ∀ earlier : Phase, earlier.index < phase.index →
    ∃ body, w.met limits earlier = .ok (.report (.text earlier.expected) body)
  here : Deviates limits w.exitCode phase (w.met limits phase) e

variable {w : Worker} {limits : TimeLimits} {phase : Phase} {e : Error} {outputs : Entries}

theorem completes_or_deviatesFirst (w : Worker) (limits : TimeLimits) :
    (∃ outputs, w.Completes limits outputs) ∨ ∃ phase e, w.DeviatesFirst limits phase e := by
  rcases deviates_or_endsWell limits w.exitCode .startup (w.met limits .startup) with
    ⟨e, hstartup⟩ | ⟨first, hstartup, -⟩
  · exact .inr ⟨.startup, e, fun earlier hlt => absurd hlt (Nat.not_lt_zero _), hstartup⟩
  rcases deviates_or_endsWell limits w.exitCode .setup (w.met limits .setup) with
    ⟨e, hsetup⟩ | ⟨second, hsetup, -⟩
  · refine .inr ⟨.setup, e, fun earlier hlt => ?_, hsetup⟩
    cases earlier with
    | startup => exact ⟨first, hstartup⟩
    | setup | invoke => simp [Phase.index] at hlt
  rcases deviates_or_endsWell limits w.exitCode .invoke (w.met limits .invoke) with
    ⟨e, hinvoke⟩ | ⟨third, hinvoke, hmapping⟩
  · refine .inr ⟨.invoke, e, fun earlier hlt => ?_, hinvoke⟩
    cases earlier with
    | startup => exact ⟨first, hstartup⟩
    | setup => exact ⟨second, hsetup⟩
    | invoke => simp [Phase.index] at hlt
  · obtain ⟨outputs, rfl⟩ := hmapping rfl
    exact .inl ⟨outputs, ⟨first, hstartup⟩, ⟨second, hsetup⟩, hinvoke⟩

/-- The supervisor comes to a phase behind others that end well: it has read their reports, and all
that it goes on to read it reads in this phase and the later ones. -/
theorem awaitAll_of_before (hbefore : ∀ earlier : Phase, earlier.index < phase.index →
      ∃ body, w.met limits earlier = .ok (.report (.text earlier.expected) body)) :
    ∃ calls, calls.count .receive = phase.index ∧
      awaitAll limits w.exitCode Phase.inOrder w.arrivals =
        ((awaitAll limits w.exitCode (phase :: Phase.inOrder.drop (phase.index + 1))
            (w.arrivals.drop phase.index)).1,
          calls ++ (awaitAll limits w.exitCode (phase :: Phase.inOrder.drop (phase.index + 1))
            (w.arrivals.drop phase.index)).2) := by
  have hlength : (Phase.inOrder.take phase.index).length = phase.index := by
    cases phase <;> rfl
  have hwell : ∀ i earlier, (Phase.inOrder.take phase.index)[i]? = some earlier →
      EndsWell limits earlier (w.arrivals.drop i) := by
    intro i earlier hearlier
    have hi : i < phase.index := by
      have hi := (List.getElem?_eq_some_iff.mp hearlier).1
      rwa [hlength] at hi
    rw [List.getElem?_take_of_lt hi] at hearlier
    obtain rfl := Phase.getElem?_inOrder.mp hearlier
    exact hbefore earlier hi
  have hawait := awaitAll_append_of_endsWell w.exitCode phase
    (Phase.inOrder.drop (phase.index + 1)) hwell
  rw [← Phase.inOrder_eq, hlength] at hawait
  exact hawait

theorem Completes.result (hcompletes : w.Completes limits outputs) :
    (awaitAll limits w.exitCode Phase.inOrder w.arrivals).1.bind outputsOf = .ok outputs := by
  obtain ⟨hstartup, hsetup, hinvoke⟩ := hcompletes
  have hbefore : ∀ earlier : Phase, earlier.index < Phase.invoke.index →
      ∃ body, w.met limits earlier = .ok (.report (.text earlier.expected) body) := by
    intro earlier hlt
    cases earlier with
    | startup => exact hstartup
    | setup => exact hsetup
    | invoke => simp at hlt
  obtain ⟨calls, -, hawait⟩ := awaitAll_of_before hbefore
  obtain ⟨seconds, hlast⟩ := awaitReport_of_endsWell w.exitCode hinvoke
  have hbody : (awaitAll limits w.exitCode [.invoke] (w.arrivals.drop Phase.invoke.index)).1 =
      .ok (.map outputs) := congrArg Prod.fst hlast
  rw [hawait]
  exact congrArg (·.bind outputsOf) hbody

theorem DeviatesFirst.result (hdeviates : w.DeviatesFirst limits phase e) :
    (awaitAll limits w.exitCode Phase.inOrder w.arrivals).1.bind outputsOf = .error e ∧
      (awaitAll limits w.exitCode Phase.inOrder w.arrivals).2.count .receive ≤
        phase.index + 1 := by
  obtain ⟨hbefore, hhere⟩ := hdeviates
  obtain ⟨calls, hcount, hawait⟩ := awaitAll_of_before hbefore
  have hread := count_receive_awaitReport_le limits w.exitCode phase
    (w.arrivals.drop phase.index)
  rcases awaitReport_of_deviates hhere with herror | ⟨rfl, body, hbody, herror⟩
  · rw [awaitAll_of_error herror] at hawait
    rw [hawait]
    refine ⟨rfl, ?_⟩
    simp only [List.count_append, hcount]
    omega
  · have hlast : awaitAll limits w.exitCode (.invoke :: Phase.inOrder.drop (Phase.invoke.index + 1))
        (w.arrivals.drop Phase.invoke.index) =
          ((awaitReport limits w.exitCode .invoke (w.arrivals.drop Phase.invoke.index)).1,
            (awaitReport limits w.exitCode .invoke (w.arrivals.drop Phase.invoke.index)).2.1) := rfl
    rw [hawait, hlast, hbody]
    refine ⟨herror, ?_⟩
    simp only [List.count_append, hcount]
    omega

theorem result_eq_ok_iff (w : Worker) (limits : TimeLimits) (outputs : Entries) :
    (awaitAll limits w.exitCode Phase.inOrder w.arrivals).1.bind outputsOf = .ok outputs ↔
      w.Completes limits outputs := by
  constructor
  · intro houtputs
    rcases w.completes_or_deviatesFirst limits with
      ⟨outputs', hcompletes⟩ | ⟨phase, e, hdeviates⟩
    · rw [hcompletes.result] at houtputs
      cases houtputs
      exact hcompletes
    · rw [hdeviates.result.1] at houtputs
      cases houtputs
  · exact Completes.result

theorem result_eq_error_iff (w : Worker) (limits : TimeLimits) (e : Error) :
    (awaitAll limits w.exitCode Phase.inOrder w.arrivals).1.bind outputsOf = .error e ↔
      ∃ phase, w.DeviatesFirst limits phase e := by
  constructor
  · intro herror
    rcases w.completes_or_deviatesFirst limits with
      ⟨outputs, hcompletes⟩ | ⟨phase, e', hdeviates⟩
    · rw [hcompletes.result] at herror
      cases herror
    · rw [hdeviates.result.1] at herror
      cases herror
      exact ⟨phase, hdeviates⟩
  · rintro ⟨phase, hdeviates⟩
    exact hdeviates.result.1

/-- Workers that show the same up to the first deviation of one of them are waited for alike. -/
theorem DeviatesFirst.awaitAll_congr {w' : Worker} (hdeviates : w.DeviatesFirst limits phase e)
    (hexit : w'.exitCode = w.exitCode)
    (hsame : ∀ earlier : Phase, earlier.index ≤ phase.index →
      w'.met limits earlier = w.met limits earlier) :
    awaitAll limits w'.exitCode Phase.inOrder w'.arrivals =
      awaitAll limits w.exitCode Phase.inOrder w.arrivals := by
  rw [hexit]
  refine (Sandbox.awaitAll_congr fun i other hother hbefore => ?_).symm
  obtain rfl := Phase.getElem?_inOrder.mp hother
  by_cases hle : other.index ≤ phase.index
  · exact (hsame other hle).symm
  · -- The supervisor does not come to a phase behind the one that deviates.
    have hlt : phase.index < other.index := Nat.not_le.mp hle
    have hwell : EndsWell limits phase (w.arrivals.drop phase.index) :=
      hbefore phase.index phase hlt (Phase.getElem?_inOrder.mpr rfl)
    have hinvoke : phase = .invoke := Deviates.eq_invoke hdeviates.here hwell
    subst hinvoke
    cases other <;> simp [Phase.index] at hlt

end Worker

theorem count_receive_dispose (alive : List Bool) : (dispose alive).count .receive = 0 := by
  unfold dispose
  split <;> rfl

theorem Worker.DeviatesFirst.result_execute {limits : TimeLimits}
    (worker : String → Value → Worker) {payload inputs plain : Value} {text : String}
    {phase : Phase} {e : Error}
    (hdeviates : (worker text plain).DeviatesFirst limits phase e)
    (haccepted : accept payload inputs = .ok (text, plain)) :
    (execute limits worker payload inputs).result = .error e := by
  rw [execute_of_accepted haccepted]
  exact hdeviates.result.1

/-- An execution gives outputs just if the worker completes with them.  Otherwise it fails as the
first deviation says, and nothing that arrives behind this deviation is read or makes a
difference. -/
theorem execute_decided_by_first_deviation (limits : TimeLimits) (worker : String → Value → Worker)
    {payload inputs plain : Value} {text : String}
    (haccepted : accept payload inputs = .ok (text, plain)) :
    (∀ outputs, (execute limits worker payload inputs).result = .ok outputs ↔
      (worker text plain).Completes limits outputs) ∧
    (∀ e, (execute limits worker payload inputs).result = .error e ↔
      ∃ phase, (worker text plain).DeviatesFirst limits phase e) ∧
    ∀ phase e, (worker text plain).DeviatesFirst limits phase e →
      (execute limits worker payload inputs).calls.count .receive ≤ phase.index + 1 ∧
      ∀ worker' : String → Value → Worker,
        (worker' text plain).exitCode = (worker text plain).exitCode →
        (worker' text plain).alive = (worker text plain).alive →
        (∀ earlier : Phase, earlier.index ≤ phase.index →
          (worker' text plain).met limits earlier = (worker text plain).met limits earlier) →
        execute limits worker' payload inputs = execute limits worker payload inputs := by
  rw [execute_of_accepted haccepted]
  refine ⟨?_, ?_, fun phase e hdeviates => ⟨?_, ?_⟩⟩
  · exact (worker text plain).result_eq_ok_iff limits
  · exact (worker text plain).result_eq_error_iff limits
  · have hopening : [Call.process text plain, .start, .closeSender].count .receive = 0 := rfl
    simp only [List.count_append, hopening, count_receive_dispose, Nat.zero_add, Nat.add_zero]
    exact hdeviates.result.2
  · intro worker' hexit halive hsame
    rw [execute_of_accepted haccepted]
    simp only [hdeviates.awaitAll_congr hexit hsame, halive]

def stalling : Worker where
  arrivals := [.report (.text started) .none, .silence, .report (.text registered) .none]
  alive := [true]
  exitCode := none

theorem stalling_times_out :
    accept (.text "") (.map []) = .ok ("", .map []) ∧
      stalling.DeviatesFirst {} .setup (.timeout "setup" (.int 5000)) ∧
      (execute {} (fun _ _ => stalling) (.text "") (.map [])).result =
        .error (.timeout "setup" (.int 5000)) := by
  have haccepted : accept (.text "") (.map []) = .ok ("", .map []) := rfl
  have hdeviates : stalling.DeviatesFirst {} .setup (.timeout "setup" (.int 5000)) := by
    constructor
    case before =>
      intro earlier hlt
      cases earlier with
      | startup => exact ⟨.none, rfl⟩
      | setup | invoke => simp [Phase.index] at hlt
    case here =>
      have hmet : stalling.met {} .setup = .ok .silence := rfl
      rw [hmet]
      exact .timeout (by decide)
  obtain ⟨-, herror, -⟩ :=
    execute_decided_by_first_deviation {} (fun _ _ => stalling) haccepted
  exact ⟨haccepted, hdeviates, (herror _).mpr ⟨.setup, hdeviates⟩⟩

/-- A whole number with one digit more than can be written. -/
def overlongNumber : Int := Int.pow 10 4300

theorem writeFault?_overlongNumber :
    (Value.int overlongNumber).writeFault? = some WholeText.unwritable := by
  decide +kernel

/-- A worker whose first report has a status that cannot be written. -/
def overlong : Worker where
  arrivals := [.report (.int overlongNumber) .none]
  alive := []
  exitCode := none

/-- A worker that reports as it is waited for. -/
def punctual : Worker where
  arrivals := [.report (.text started) .none, .report (.text registered) .none,
    .report (.text succeeded) (.map [])]
  alive := []
  exitCode := some 0

/-- Time limits of which the first one is too large to be a number of seconds. -/
def endless : TimeLimits where
  startup := .int overlongNumber

theorem seconds_endless : Phase.startup.seconds endless = .error Fault.quotientTooLarge := by
  decide +kernel

/-- A status that cannot be written is no error of the execution, and a worker that completes gives
no outputs under a limit that is no number of seconds. -/
theorem deviations_escape :
    overlong.met {} .startup = .ok (.report (.int overlongNumber) .none) ∧
      (execute {} (fun _ _ => overlong) (.text "") (.map [])).result =
        .error (.fault WholeText.unwritable) ∧
      punctual.Completes {} [] ∧
      (execute endless (fun _ _ => punctual) (.text "") (.map [])).result =
        .error (.fault Fault.quotientTooLarge) := by
  have haccepted : accept (.text "") (.map []) = .ok ("", .map []) := rfl
  have hmet : overlong.met {} .startup = .ok (.report (.int overlongNumber) .none) := rfl
  have hoverlong : overlong.DeviatesFirst {} .startup (.fault WholeText.unwritable) := by
    refine ⟨fun earlier hlt => absurd hlt (Nat.not_lt_zero _), ?_⟩
    rw [hmet]
    exact .unwritable writeFault?_overlongNumber .none
  have hpunctual : punctual.DeviatesFirst endless .startup (.fault Fault.quotientTooLarge) := by
    refine ⟨fun earlier hlt => absurd hlt (Nat.not_lt_zero _), ?_⟩
    rw [Worker.met, met, seconds_endless]
    exact .limit .startup Fault.quotientTooLarge
  have hcompletes : punctual.Completes {} [] := ⟨⟨_, rfl⟩, ⟨_, rfl⟩, rfl⟩
  exact ⟨hmet, Worker.DeviatesFirst.result_execute (fun _ _ => overlong) hoverlong haccepted,
    hcompletes, Worker.DeviatesFirst.result_execute (fun _ _ => punctual) hpunctual haccepted⟩

end ModelPlaybook.Sandbox
