import ModelPlaybook.Proofs.Playbook.Completion
import ModelPlaybook.Proofs.Playbook.PublishedOutputs
import ModelPlaybook.Proofs.Playbook.ReferenceText
import ModelPlaybook.Proofs.Sandbox.PlainForm
import ModelPlaybook.Proofs.Sandbox.Protocol

/-!
# Values on their way from model to model

What a worker is handed is a plain form, which it freezes for its model, and what the model gives
comes out as a plain form again.  So nothing is lost on the way into a worker and back, and an
output that a step passes on reaches the next model as the first one gave it.
-/

namespace ModelPlaybook

/-! ## Executions -/

namespace Sandbox

/-- Model logic that returns its inputs. -/
def Behaviour.returning (plain : Value) : Behaviour where
  loading := .registers
  invocation := .gives (.ofValue plain.freeze)

section

variable {limits : TimeLimits} {worker : String → Value → Worker} {payload inputs plain : Value}
  {text : String}

theorem Behaviour.returning_gives {entries : Entries} (hplain : (Value.map entries).IsPlainForm) :
    (Behaviour.returning (.map entries)).Gives entries :=
  ⟨rfl, .ofValue (Value.map entries).freeze, rfl, rfl, hplain.toPlain_freeze "outputs"⟩

theorem result_of_returning (hlimits : limits.Bounded)
    (haccepted : accept payload inputs = .ok (text, plain))
    (hsends : (worker text plain).Sends (.returning plain) 3) :
    ∃ entries, plain = .map entries ∧
      (execute limits worker payload inputs).result = .ok entries := by
  obtain ⟨-, hmapping, hplain⟩ := accept_eq_ok_iff.mp haccepted
  obtain ⟨entries, rfl⟩ := Value.exists_map_of_toPlain hmapping hplain
  have hgives := Behaviour.returning_gives (Value.isPlainForm_of_toPlain hplain)
  have hsent : (Behaviour.returning (.map entries)).reports.length ≤ 3 := by
    rw [hgives.reports_eq]
    exact Nat.le_refl 3
  refine ⟨entries, rfl, ?_⟩
  rw [result_of_sends hlimits haccepted hsends (hgives.session hsent)]
  rfl

end

end Sandbox

/-! ## Steps -/

namespace Playbook

open ModelPlaybook.Expression

/-- Services that execute models in a sandbox, in workers that run the logic of the models. -/
def Services.Runs (services : Services) (behaviour : String → Value → Sandbox.Behaviour) : Prop :=
  ∃ limits worker, (∀ text plain, (worker text plain).Shows (behaviour text plain)) ∧
    ∀ logic inputs, (services.execute logic inputs).outcome =
      (Sandbox.execute limits worker (.text logic) (.map inputs)).result.map .map

theorem runs_services (w : Workspace) :
    w.services.Runs fun text plain => (Script.tryOn text plain).behaviour :=
  ⟨_, _, fun _ _ => Sandbox.Behaviour.shows_worker _, outcome_services w⟩

section

variable {services : Services} {behaviour : String → Value → Sandbox.Behaviour} {env : Environment}
  {step : Step} {outputs : Entries}

/-- The outputs that a step publishes are given by the logic of its model. -/
theorem Step.Succeeds.gives (hservices : services.Runs behaviour)
    (hsucceeds : step.Succeeds services env outputs) :
    ∃ model inputs plain, step.Ready env inputs ∧ step.Admits services inputs model ∧
      Sandbox.accept (.text model.logic) (.map inputs) = .ok (model.logic, plain) ∧
      (behaviour model.logic plain).Gives outputs := by
  obtain ⟨limits, worker, hshows, hexecute⟩ := hservices
  obtain ⟨result, hrecords, houtputs⟩ := hsucceeds
  cases hrecords with
  | skipped hdue => cases houtputs
  | failed hfails hcontract hpolicy => cases houtputs
  | @succeeded inputs outputs' model v hready hmodel houtcome hentries =>
      cases houtputs
      rw [hexecute] at houtcome
      obtain ⟨given, hgiven, rfl⟩ := map_eq_ok.mp houtcome
      cases hentries
      obtain ⟨text, plain, haccepted, hgives⟩ := Sandbox.gives_of_execute hshows hgiven
      obtain ⟨htext, -, -⟩ := Sandbox.accept_eq_ok_iff.mp haccepted
      obtain rfl : model.logic = text := by simpa [Value.text?] using htext
      exact ⟨model, inputs, plain, hready, hmodel, haccepted, hgives⟩

theorem getElem?_of_resolveEntries {inputs : List (String × StepInput)} {resolved : Entries}
    {k : Nat} {key : String} {input : StepInput}
    (hresolved : resolveEntries env (inputs.map fun (key, input) => (.text key, input.toValue)) =
      .ok resolved) (hinput : inputs[k]? = some (key, input)) :
    ∃ v, resolveInput env input.toValue = .ok v ∧ resolved[k]? = some (.text key, v) := by
  induction inputs generalizing resolved k with
  | nil => simp at hinput
  | cons entry inputs ih =>
      obtain ⟨firstKey, firstInput⟩ := entry
      simp only [resolveEntries, List.map_cons, List.mapM_cons] at hresolved
      obtain ⟨first, hfirst, hresolved⟩ := bind_eq_ok.mp hresolved
      obtain ⟨v, hv, hfirst⟩ := bind_eq_ok.mp hfirst
      obtain ⟨rest, hrest, hresolved⟩ := bind_eq_ok.mp hresolved
      cases hfirst
      cases hresolved
      cases k with
      | zero =>
          cases hinput
          exact ⟨v, hv, rfl⟩
      | succ k =>
          have hlater := ih hrest hinput
          exact hlater

/-- An input that is a plain form reaches the model of its step unchanged, and frozen. -/
theorem Step.entryAt?_of_resolve {k : Nat} {key logic : String} {input : StepInput}
    {v plain : Value} {inputs : Entries} (hinput : step.inputs[k]? = some (key, input))
    (hvalue : resolveInput env input.toValue = .ok v) (hform : v.IsPlainForm)
    (hinputs : step.resolve env = .ok inputs)
    (haccepted : Sandbox.accept (.text logic) (.map inputs) = .ok (logic, plain)) :
    plain.entryAt? k = some (.text key, v) ∧
      plain.freeze.entryAt? k = some (.text key, v.freeze) := by
  rw [step.resolve_eq] at hinputs
  obtain ⟨v', hv', hplace⟩ := getElem?_of_resolveEntries (mapError_eq_ok.mp hinputs) hinput
  rw [hvalue] at hv'
  cases hv'
  obtain ⟨-, -, hplain⟩ := Sandbox.accept_eq_ok_iff.mp haccepted
  exact Value.entryAt?_of_toPlain hplain hplace hform

end

/-- Values pass unchanged into workers and out of them, and from one step to another. -/
theorem values_pass_unchanged :
    (∀ path path' v w, Value.toPlain path v = .ok w →
      w.IsPlainForm ∧ w.freeze.toPlain path' = .ok w) ∧
    (∀ path w, Value.IsPlainForm w → w.toPlain path = .ok w) ∧
    (∀ limits worker payload inputs text plain, Sandbox.TimeLimits.Bounded limits →
      Sandbox.accept payload inputs = .ok (text, plain) →
      (worker text plain).Sends (.returning plain) 3 →
      ∃ entries, plain = .map entries ∧
        (Sandbox.execute limits worker payload inputs).result = .ok entries) ∧
    ∀ services behaviour p intake i earlier outputs later met,
      Services.Runs (services i) behaviour → (p.steps.map (·.id)).Nodup →
      Published services p intake i earlier outputs later met →
      (∃ met₀ model inputs plain, p.Reaches services intake i earlier met₀ ∧
        earlier.Ready met₀ inputs ∧ earlier.Admits (services i) inputs model ∧
        Sandbox.accept (.text model.logic) (.map inputs) = .ok (model.logic, plain) ∧
        (behaviour model.logic plain).Gives outputs) ∧
      ∀ output v k key s r, outputs.get? output = some v →
        later.inputs[k]? = some (key, .text s) → opensReference s = true →
        referenceOfText s = .ok r → r.path = "steps." ++ earlier.id ++ "." ++ output →
        resolveInput met (StepInput.text s).toValue = .ok v ∧
        ∀ inputs logic plain, later.resolve met = .ok inputs →
          Sandbox.accept (.text logic) (.map inputs) = .ok (logic, plain) →
          plain.entryAt? k = some (.text key, v) ∧
            plain.freeze.entryAt? k = some (.text key, v.freeze) ∧
            ∀ path, v.freeze.toPlain path = .ok v := by
  refine ⟨?_, ?_, ?_, ?_⟩
  · intro path path' v w hplain
    have hform := Value.isPlainForm_of_toPlain hplain
    exact ⟨hform, hform.toPlain_freeze path'⟩
  · intro path w hform
    exact hform.toPlain_self path
  · intro limits worker payload inputs text plain hlimits haccepted hsends
    exact Sandbox.result_of_returning hlimits haccepted hsends
  · intro services behaviour p intake i earlier outputs later met hservices hids hpublished
    obtain ⟨met₀, hreaches, hsucceeds⟩ := hpublished.earlier
    obtain ⟨model, inputs₀, plain₀, hready, hmodel, haccepted₀, hgives⟩ := hsucceeds.gives hservices
    refine ⟨⟨met₀, model, inputs₀, plain₀, hreaches, hready, hmodel, haccepted₀, hgives⟩, ?_⟩
    intro output v k key s r hfound hinput hopens hread hpath
    have hvalue : resolveInput met (StepInput.text s).toValue = .ok v :=
      hpublished.resolveInput_eq hids hfound hopens hread hpath
    have hform : v.IsPlainForm := hgives.isPlainForm.get? hfound
    refine ⟨hvalue, ?_⟩
    intro inputs logic plain hinputs haccepted
    obtain ⟨hhanded, hfrozen⟩ :=
      later.entryAt?_of_resolve hinput hvalue hform hinputs haccepted
    exact ⟨hhanded, hfrozen, hform.toPlain_freeze⟩

def tabled : Sandbox.Behaviour where
  loading := .registers
  invocation :=
    .gives (.ofValue (.frozenMap [(.text "rows", .tuple [.int 1, .tuple [.int 2]])]))

def tabling : Services where
  load modelId := .ok ⟨⟨modelId, modelId, "1.0", "", [], [], []⟩, modelId⟩
  check _ _ := .ok (.ok [])
  execute logic inputs :=
    let worker (_ : String) (_ : Value) : Sandbox.Worker := tabled.worker
    ⟨(Sandbox.execute {} worker (.text logic) (.map inputs)).result.map .map, []⟩

def makeStep : Step :=
  ⟨"make", "table", none, [], .abort, "", []⟩

def takeStep : Step :=
  ⟨"take", "reader", none, [("rows", .text (outputText "make" "rows"))], .abort, "", []⟩

def handing : Playbook where
  id := "handing"
  version := "1"
  name := "Handing"
  description := ""
  intakeFields := []
  steps := [makeStep, takeStep]
  extra := []

def madeRows : Value :=
  .list [.int 1, .list [.int 2]]

theorem published_handing :
    handing.Published (fun _ => tabling) (.map []) 0 makeStep [(.text "rows", madeRows)] takeStep
      ⟨[], [("make", [(.text "rows", madeRows)])]⟩ := by
  let model : Model := ⟨⟨"table", "table", "1.0", "", [], [], []⟩, "table"⟩
  have hready : makeStep.Ready ⟨[], []⟩ [] := ⟨rfl, rfl⟩
  have hmodel : makeStep.Admits tabling [] model := ⟨rfl, .ok [], rfl, rfl⟩
  have houtcome :
      (tabling.execute model.logic []).outcome = .ok (.map [(.text "rows", madeRows)]) := rfl
  have hrecords := Step.Records.succeeded hready hmodel houtcome rfl
  have hfirst : Meets (fun _ => tabling) ⟨[], []⟩ handing.steps 0 makeStep ⟨[], []⟩ :=
    meets_zero.mpr ⟨rfl, rfl⟩
  have hsecond : Meets (fun _ => tabling) ⟨[], []⟩ handing.steps 1 takeStep
      ⟨[], [("make", [(.text "rows", madeRows)])]⟩ :=
    meets_succ.mpr ⟨_, hrecords, meets_zero.mpr ⟨rfl, rfl⟩⟩
  exact ⟨⟨⟨[], []⟩, ⟨rfl, hfirst⟩, _, hrecords, rfl⟩, 1, Nat.one_pos, rfl, hsecond⟩

theorem handing_hands_rows :
    tabling.Runs (fun _ _ => tabled) ∧
    handing.Published (fun _ => tabling) (.map []) 0 makeStep [(.text "rows", madeRows)] takeStep
      ⟨[], [("make", [(.text "rows", madeRows)])]⟩ ∧
    ∃ plain, Sandbox.accept (.text "reader") (.map [(.text "rows", madeRows)]) =
        .ok ("reader", plain) ∧
      plain.entryAt? 0 = some (.text "rows", madeRows) ∧
      plain.freeze.entryAt? 0 = some (.text "rows", .tuple [.int 1, .tuple [.int 2]]) := by
  have hruns : tabling.Runs fun _ _ => tabled :=
    ⟨{}, _, fun _ _ => Sandbox.Behaviour.shows_worker _, fun _ _ => rfl⟩
  have hids : (handing.steps.map (·.id)).Nodup := by decide
  have hid : IsName "make".toList := isName_ofList ['m', 'a', 'k', 'e'] (by decide) (by decide)
  have houtput : IsName "rows".toList := isName_ofList ['r', 'o', 'w', 's'] (by decide) (by decide)
  have hread : referenceOfText (outputText "make" "rows") = .ok ⟨.steps, "make.rows", some 0⟩ :=
    referenceOfText_of_isName hid houtput
  have haccepted : Sandbox.accept (.text "reader") (.map [(.text "rows", madeRows)]) =
      .ok ("reader", .map [(.text "rows", madeRows)]) := rfl
  obtain ⟨-, -, -, hpasses⟩ := values_pass_unchanged
  obtain ⟨-, hhanded⟩ :=
    hpasses (fun _ => tabling) _ handing (.map []) 0 makeStep _ takeStep _ hruns hids
      published_handing
  obtain ⟨hvalue, harrives⟩ := hhanded "rows" madeRows 0 "rows" (outputText "make" "rows") _ rfl rfl
    (opensReference_outputText "make" "rows") hread rfl
  have hinputs : takeStep.resolve ⟨[], [("make", [(.text "rows", madeRows)])]⟩ =
      .ok [(.text "rows", madeRows)] := by
    simp only [Step.resolve, takeStep, List.map_cons, List.map_nil, resolveEntries, List.mapM_cons,
      hvalue]
    rfl
  obtain ⟨hplain, hfrozen, -⟩ := harrives _ "reader" _ hinputs haccepted
  exact ⟨hruns, published_handing, _, haccepted, hplain, hfrozen⟩

end Playbook

end ModelPlaybook
