import ModelPlaybook.Proofs.Sandbox.FirstOffence

/-!
# The worker is gone

However an execution ends, the supervisor is through with its worker: the pipe is closed on both
sides, and the process is stopped as far as it has to be, joined and closed.  Arguments that are
refused leave nothing behind, since no worker is made for them.
-/

namespace ModelPlaybook.Sandbox

/-- What a worker answers when it is asked for the nth time whether it is alive. -/
def Worker.answer (w : Worker) (n : Nat) : Bool :=
  w.alive.getD n false

inductive Call.IsWaiting : Call → Prop where
  | poll (seconds : Binary64) : IsWaiting (.poll seconds)
  | receive : IsWaiting .receive
  | join (seconds : Nat) : IsWaiting (.join (some seconds))

/-- A process is stopped as far as its answers ask for, and then joined and closed. -/
inductive Disposes (w : Worker) : List Call → Prop where
  | gone (hfirst : w.answer 0 = false) :
      Disposes w [.isAlive, .join none, .close]
  | terminated (hfirst : w.answer 0 = true) (hsecond : w.answer 1 = false) :
      Disposes w [.isAlive, .terminate, .join (some 1), .isAlive, .join none, .close]
  | killed (hfirst : w.answer 0 = true) (hsecond : w.answer 1 = true) :
      Disposes w [.isAlive, .terminate, .join (some 1), .isAlive, .kill, .join none, .close]

def opening (text : String) (plain : Value) : List Call :=
  [.process text plain, .start, .closeSender]

/-- The calls of an execution in their order. -/
structure Orderly (text : String) (plain : Value) (w : Worker) (calls : List Call) : Prop where
  order : ∃ waiting cleanup, (∀ call ∈ waiting, call.IsWaiting) ∧ Disposes w cleanup ∧
    calls = opening text plain ++ waiting ++ .closeReceiver :: cleanup
  start : calls.count .start = 1
  closeReceiver : calls.count .closeReceiver = 1
  terminate : .terminate ∈ calls ↔ w.answer 0 = true
  kill : .kill ∈ calls ↔ w.answer 0 = true ∧ w.answer 1 = true

/-! ## Waiting -/

section

variable {limits : TimeLimits} {exitCode : Option Int} {phase : Phase} {arrivals : List Arrival}
  {call : Call}

theorem isWaiting_of_mem_awaitReport
    (hcall : call ∈ (awaitReport limits exitCode phase arrivals).2.1) :
    call.IsWaiting := by
  unfold awaitReport at hcall
  split at hcall
  · cases hcall
  next seconds hseconds =>
    have hpoll : call = .poll seconds → call.IsWaiting := by
      rintro rfl
      exact .poll seconds
    have hreceive : call = .receive → call.IsWaiting := by
      rintro rfl
      exact .receive
    split at hcall
    · exact hpoll (List.mem_singleton.mp hcall)
    · exact hpoll (List.mem_singleton.mp hcall)
    · simp only [List.mem_cons, List.not_mem_nil, or_false] at hcall
      rcases hcall with hcall | hcall | rfl
      · exact hpoll hcall
      · exact hreceive hcall
      · exact .join 1
    all_goals
      simp only [List.mem_cons, List.not_mem_nil, or_false] at hcall
      exact hcall.elim hpoll hreceive

theorem isWaiting_of_mem_awaitAll {phases : List Phase}
    (hcall : call ∈ (awaitAll limits exitCode phases arrivals).2) :
    call.IsWaiting := by
  induction phases generalizing arrivals with
  | nil => cases hcall
  | cons phase phases ih =>
      rcases hawait : awaitReport limits exitCode phase arrivals with ⟨e | body, calls, later⟩
      · rw [awaitAll_of_error (congrArg Prod.fst hawait)] at hcall
        exact isWaiting_of_mem_awaitReport hcall
      · by_cases hphases : phases = []
        · subst hphases
          exact isWaiting_of_mem_awaitReport hcall
        · rw [awaitAll_of_ok hphases hawait] at hcall
          rcases List.mem_append.mp hcall with hcall | hcall
          · have hcall : call ∈ (awaitReport limits exitCode phase arrivals).2.1 := by
              rw [hawait]
              exact hcall
            exact isWaiting_of_mem_awaitReport hcall
          · exact ih hcall

end

/-! ## Disposing -/

section

variable {w : Worker} {waiting cleanup : List Call}

theorem exists_disposes (w : Worker) :
    ∃ cleanup, dispose w.alive = .closeReceiver :: cleanup ∧ Disposes w cleanup := by
  obtain ⟨arrivals, alive, exitCode⟩ := w
  rcases alive with _ | ⟨_ | _, _ | ⟨_ | _, alive⟩⟩
  case nil => exact ⟨_, rfl, .gone rfl⟩
  case cons.false.nil | cons.false.cons.false | cons.false.cons.true => exact ⟨_, rfl, .gone rfl⟩
  case cons.true.nil | cons.true.cons.false => exact ⟨_, rfl, .terminated rfl rfl⟩
  case cons.true.cons.true => exact ⟨_, rfl, .killed rfl rfl⟩

/-- The other facts follow from the order, since waiting is nothing but waiting. -/
theorem Orderly.of_order (text : String) (plain : Value)
    (hwaiting : ∀ call ∈ waiting, call.IsWaiting) (hcleanup : Disposes w cleanup) :
    Orderly text plain w (opening text plain ++ waiting ++ .closeReceiver :: cleanup) := by
  have hnotMem (call : Call) (hcall : ¬ call.IsWaiting) : call ∉ waiting :=
    fun hmem => hcall (hwaiting call hmem)
  have hstart : .start ∉ waiting := hnotMem .start (by rintro ⟨⟩)
  have hcloseReceiver : .closeReceiver ∉ waiting := hnotMem .closeReceiver (by rintro ⟨⟩)
  have hterminate : .terminate ∉ waiting := hnotMem .terminate (by rintro ⟨⟩)
  have hkill : .kill ∉ waiting := hnotMem .kill (by rintro ⟨⟩)
  constructor
  case order => exact ⟨waiting, cleanup, hwaiting, hcleanup, rfl⟩
  case start =>
    rw [List.count_append, List.count_append, List.count_eq_zero.mpr hstart]
    cases hcleanup <;> rfl
  case closeReceiver =>
    rw [List.count_append, List.count_append, List.count_eq_zero.mpr hcloseReceiver]
    cases hcleanup <;> rfl
  case terminate => cases hcleanup <;> simp [opening, *]
  case kill => cases hcleanup <;> simp [opening, *]

end

/-! ## Executions -/

theorem accept_of_refused {payload inputs : Value}
    (hrefused : payload.text? = none ∨ inputs.entries? = none ∨
      ∃ fault, inputs.toPlain "inputs" = .error fault) :
    ∃ message, accept payload inputs = .error (.contract message) := by
  unfold accept
  split
  · exact ⟨_, rfl⟩
  next text htext =>
    split
    · exact ⟨_, rfl⟩
    next entries hentries =>
      rcases hrefused with hpayload | hinputs | ⟨fault, hplain⟩
      · rw [htext] at hpayload
        cases hpayload
      · rw [hentries] at hinputs
        cases hinputs
      · obtain ⟨steps, u, rest, -, hfault⟩ := Cargo.ofType_of_toPlain_ofValue hplain
        have hkind : fault.fault.kind = .type := by rw [hfault]; rfl
        exact ⟨fault.fault.text, by rw [hplain]; exact congrArg Except.error (if_pos hkind)⟩

/-- Refused arguments break a contract and no worker is made for them.  For all others the worker is
started once and disposed of, whatever it shows, and its answers make no difference to what the
execution gives. -/
theorem execute_disposes (limits : TimeLimits) (worker : String → Value → Worker)
    (payload inputs : Value) :
    ((payload.text? = none ∨ inputs.entries? = none ∨
        ∃ fault, inputs.toPlain "inputs" = .error fault) →
      ∃ message, execute limits worker payload inputs = ⟨.error (.contract message), []⟩) ∧
    ∀ text plain, payload.text? = some text → inputs.entries?.isSome = true →
      inputs.toPlain "inputs" = .ok plain →
      Orderly text plain (worker text plain) (execute limits worker payload inputs).calls ∧
      ∀ worker' : String → Value → Worker,
        (worker' text plain).arrivals = (worker text plain).arrivals →
        (worker' text plain).exitCode = (worker text plain).exitCode →
        (execute limits worker' payload inputs).result =
          (execute limits worker payload inputs).result := by
  constructor
  · intro hrefused
    obtain ⟨message, haccept⟩ := accept_of_refused hrefused
    exact ⟨message, by simp only [execute, haccept]⟩
  · intro text plain htext hinputs hplain
    have haccepted : accept payload inputs = .ok (text, plain) :=
      accept_eq_ok_iff.mpr ⟨htext, hinputs, hplain⟩
    rw [execute_of_accepted haccepted]
    constructor
    · obtain ⟨cleanup, hdispose, hcleanup⟩ := exists_disposes (worker text plain)
      simp only [hdispose]
      apply Orderly.of_order text plain _ hcleanup
      intro call hcall
      exact isWaiting_of_mem_awaitAll hcall
    · intro worker' harrivals hexit
      rw [execute_of_accepted haccepted]
      simp only [harrivals, hexit]

/-- A worker that never shows anything and outlives its termination. -/
def clinging : Worker where
  arrivals := []
  alive := [true, true]
  exitCode := none

theorem clinging_is_killed :
    (∃ message, execute {} (fun _ _ => clinging) (.int 3) (.map []) =
      ⟨.error (.contract message), []⟩) ∧
    Orderly "" (.map []) clinging (execute {} (fun _ _ => clinging) (.text "") (.map [])).calls ∧
    .kill ∈ (execute {} (fun _ _ => clinging) (.text "") (.map [])).calls := by
  have hrefused := (execute_disposes {} (fun _ _ => clinging) (.int 3) (.map [])).1
  have haccepted := (execute_disposes {} (fun _ _ => clinging) (.text "") (.map [])).2
  obtain ⟨horderly, -⟩ := haccepted "" (.map []) rfl rfl rfl
  exact ⟨hrefused (.inl rfl), horderly, horderly.kill.mpr ⟨rfl, rfl⟩⟩

end ModelPlaybook.Sandbox
