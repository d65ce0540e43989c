import ModelPlaybook.Proofs.Playbook.Exchange
import ModelPlaybook.Proofs.Playbook.PublishedOutputs
import ModelPlaybook.Proofs.Playbook.ReferenceText

/-!
# Outputs that can be referred to

Any text can be the id of a step, and a step without an id is named after its model, whose id can
hold hyphens and points.  But only letters, digits and underscores make up a segment of a reference.
So later steps can refer to the outputs of a step just if its id is such a name.
-/

namespace ModelPlaybook.Playbook

open ModelPlaybook.Expression

/-- A reference to an output that a step has published finds it if the id of the step is a name, and
is malformed otherwise. -/
theorem published_output_resolves {document intake v : Value} {p : Playbook}
    {services : Nat → Services} {i : Nat} {earlier later : Step} {outputs : Entries}
    {met : Environment} {output : String} (hread : ofDocument document = .ok p)
    (hpublished : p.Published services intake i earlier outputs later met)
    (hfound : outputs.get? output = some v) (houtput : IsName output.toList) :
    (IsName earlier.id.toList →
      resolveInput met (StepInput.text (outputText earlier.id output)).toValue = .ok v) ∧
    (¬ IsName earlier.id.toList → ∃ fault,
      resolveInput met (StepInput.text (outputText earlier.id output)).toValue =
        .error (.malformed fault)) := by
  have hopens := opensReference_outputText earlier.id output
  constructor
  · intro hid
    have hids := nodup_ids_of_ofDocument hread
    have htext := referenceOfText_of_isName hid houtput
    apply hpublished.resolveInput_eq hids hfound hopens htext
    simp [Reference.path, Scope.text, ← String.toList_inj]
  · intro hid
    cases htext : referenceOfText (outputText earlier.id output) with
    | ok r => exact absurd (isName_of_referenceOfText houtput.2 htext).1 hid
    | error fault =>
        exact ⟨fault, by simp only [StepInput.toValue, resolveInput, hopens, if_true, htext]⟩

/-- A document of two steps, of which the first is named after its model and the second one refers
to its output. -/
def pricing (modelId : String) : Value :=
  .map [(.text "id", .text "pricing"), (.text "version", .text "1"),
    (.text "steps", .list [
      .map [(.text "model_id", .text modelId), (.text "input_map", .map [(.text "x", .int 3)])],
      .map [(.text "model_id", .text "num"), (.text "run_id", .text "net"),
        (.text "input_map", .map [(.text "y", .text (outputText modelId "x"))])]])]

def pricingStep (modelId : String) : Step :=
  ⟨modelId, modelId, none, [("x", .int 3)], .warnAndContinue, "", []⟩

def netStep (modelId : String) : Step :=
  ⟨"net", "num", none, [("y", .text (outputText modelId "x"))], .warnAndContinue, "", []⟩

def priced (modelId : String) : Playbook :=
  ⟨"pricing", "1", "", "", [], [pricingStep modelId, netStep modelId], []⟩

theorem published_priced (modelId : String) :
    (priced modelId).Published (fun _ => echoing) (.map []) 0 (pricingStep modelId)
      [(.text "x", .int 3)] (netStep modelId) ⟨[], [(modelId, [(.text "x", .int 3)])]⟩ := by
  let model : Model := ⟨⟨modelId, modelId, "1.0", "", [], [], []⟩, modelId⟩
  have hready : (pricingStep modelId).Ready ⟨[], []⟩ [(.text "x", .int 3)] := ⟨rfl, rfl⟩
  have hmodel : (pricingStep modelId).Admits echoing [(.text "x", .int 3)] model :=
    ⟨rfl, .ok [], rfl, rfl⟩
  have hrecords := Step.Records.succeeded hready hmodel rfl rfl
  have hfirst : Meets (fun _ => echoing) ⟨[], []⟩ (priced modelId).steps 0 (pricingStep modelId)
      ⟨[], []⟩ := meets_zero.mpr ⟨rfl, rfl⟩
  have hsecond : Meets (fun _ => echoing) ⟨[], []⟩ (priced modelId).steps 1 (netStep modelId)
      ⟨[], [(modelId, [(.text "x", .int 3)])]⟩ :=
    meets_succ.mpr ⟨_, hrecords, meets_zero.mpr ⟨rfl, rfl⟩⟩
  exact ⟨⟨⟨[], []⟩, ⟨rfl, hfirst⟩, _, hrecords, rfl⟩, 1, Nat.one_pos, rfl, hsecond⟩

theorem ofDocument_pricing_rate : ofDocument (pricing "rate") = .ok (priced "rate") := by
  apply toOption_eq_some.mp
  decide +kernel

theorem ofDocument_pricing_taxRate : ofDocument (pricing "tax-rate") = .ok (priced "tax-rate") := by
  apply toOption_eq_some.mp
  decide +kernel

/-- The output of a model is found if the id of the model is a name. -/
theorem rate_resolves :
    ofDocument (pricing "rate") = .ok (priced "rate") ∧
    (priced "rate").Published (fun _ => echoing) (.map []) 0 (pricingStep "rate")
      [(.text "x", .int 3)] (netStep "rate") ⟨[], [("rate", [(.text "x", .int 3)])]⟩ ∧
    resolveInput ⟨[], [("rate", [(.text "x", .int 3)])]⟩
      (StepInput.text (outputText "rate" "x")).toValue = .ok (.int 3) := by
  have hid : IsName "rate".toList := isName_ofList ['r', 'a', 't', 'e'] (by decide) (by decide)
  have houtput : IsName "x".toList := isName_ofList ['x'] (by decide) (by decide)
  have hresolves := published_output_resolves ofDocument_pricing_rate (published_priced "rate") rfl
    houtput
  exact ⟨ofDocument_pricing_rate, published_priced "rate", hresolves.1 hid⟩

/-- A hyphen in the id of the model hides the output, although it has been published. -/
theorem taxRate_hidden :
    ofDocument (pricing "tax-rate") = .ok (priced "tax-rate") ∧
    (priced "tax-rate").Published (fun _ => echoing) (.map []) 0 (pricingStep "tax-rate")
      [(.text "x", .int 3)] (netStep "tax-rate") ⟨[], [("tax-rate", [(.text "x", .int 3)])]⟩ ∧
    Entries.get? [(.text "x", .int 3)] "x" = some (.int 3) ∧ IsName "x".toList ∧
    resolveInput ⟨[], [("tax-rate", [(.text "x", .int 3)])]⟩
      (StepInput.text (outputText "tax-rate" "x")).toValue =
        .error (.malformed (.missingSegment .steps 0)) := by
  have houtput : IsName "x".toList := isName_ofList ['x'] (by decide) (by decide)
  refine ⟨ofDocument_pricing_taxRate, published_priced "tax-rate", rfl, houtput, ?_⟩
  cbv

end ModelPlaybook.Playbook
