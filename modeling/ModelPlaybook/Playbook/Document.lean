import ModelPlaybook.Playbook.Definition
import ModelPlaybook.Yaml.Reading

/-!
# Reading a playbook from a document

The document is a mapping.  Its id, its version and its list of steps are asked for first; then the
whole document is checked against the schema of playbooks.  A stand-in for a blocked name denies
being asked whether it counts as true.
-/

namespace ModelPlaybook.Playbook

open ModelPlaybook.Schema

def IntakeField.check (entries : Entries) : Checked IntakeField :=
  IntakeField.mk <$> required entries ["id"] text <*> withDefault entries "type" "number" text <*>
    withDefault entries "label" "" text <*> unclaimed entries ["id", "type", "label"]

/-! ## Values of one type among several -/

/-- The first of several readings that succeeds, or the issues of all of them. -/
def firstValid {α : Type} : List (Checked α) → Checked α
  | [] => .invalid []
  | .valid a :: _ => .valid a
  | .invalid issues :: rest =>
    match firstValid rest with
    | .valid a => .valid a
    | .invalid more => .invalid (issues ++ more)

/-- A truth value, a text or nothing. -/
def StepCondition.check (v : Value) : Checked (Option StepCondition) :=
  match v with
  | .none => .valid none
  | .bool b => .valid (some (fixed b))
  | .text s => .valid (some (written s))
  | v =>
    firstValid [
      ((Schema.bool v).map fun b => some (fixed b)).under "bool",
      ((text v).map fun s => some (written s)).under "str"]

/-- An object with the key `derived` and no other one. -/
def checkDerived (entries : Entries) : Checked String :=
  (Checked.both (required entries ["derived"] text) (others entries)).map (·.1)
where
  /-- The keys besides `derived` are issues. -/
  others : Entries → Checked Unit
    | [] => .valid ()
    | (key, _) :: rest =>
      let here : Checked Unit :=
        match fieldName? key with
        | some name =>
          if name = "derived" then .valid () else (Checked.fail .extra).under name
        | none => (Checked.fail .keyNotText).under (keyPart key)
      (Checked.both here (others rest)).map fun _ => ()

/-- An input: an expression object, a truth value, a number, a text or nothing.  A decimal is nearer
to a double than to anything else. -/
def StepInput.check (v : Value) : Checked StepInput :=
  match v with
  | .none => .valid none
  | .bool b => .valid (bool b)
  | .int n => .valid (int n)
  | .float x => .valid (float x)
  | .text s => .valid (text s)
  | .derived e => .valid (derived e)
  | v =>
    let readings := firstValid [
      ((record "DerivedInput" checkDerived v).map derived).under "DerivedInput",
      ((Schema.bool v).map bool).under "bool",
      ((whole v).map int).under "int",
      ((number v).map float).under "float",
      ((Schema.text v).map text).under "str"]
    match v, number v with
    | .decimal _, .valid x => .valid (float x)
    | _, _ => readings

/-- Inputs under names that may come again: the first place and the last input of a name win. -/
def mergeInputs : List (String × StepInput) → List (String × StepInput)
  | [] => []
  | (name, input) :: rest =>
    let later := mergeInputs rest
    (name, (later.lookup name).getD input) :: later.filter (·.1 != name)

/-- The inputs of a step under their names; an absent map means no inputs.  Two keys give one name
if one of them is bytes that encode the other. -/
def checkInputs (v : Value) : Checked (List (String × StepInput)) :=
  match v with
  | .none => .valid []
  | v =>
    match v.entries? with
    | some entries => (each entries).map mergeInputs
    | none => .fail .notMapping
where
  /-- One input after the other, the name before the value. -/
  each : Entries → Checked (List (String × StepInput))
    | [] => .valid []
    | (key, input) :: rest =>
      let name := ((text key).under "[key]").under (keyPart key)
      let value := (StepInput.check input).under (keyPart key)
      (Checked.both (Checked.both name value) (each rest)).map fun (x, xs) => x :: xs

/-! ## Steps and playbooks -/

/-- A step without an id is named after its model. -/
def withStepId (v : Value) : Value :=
  match v with
  | .map entries =>
    let isMissing (key : String) : Bool := !((Entries.get? entries key).any (·.isTruthy))
    if isMissing "run_id" && isMissing "id" then
      .map (Entries.put entries (.text "run_id") ((Entries.get? entries "model_id").getD .none))
    else v
  | v => v

/-- The denial of an item whose id is asked for: a stand-in under the first key, or under the other
one behind nothing that counts as true. -/
def idDenial? (item : Value) : Option Fault :=
  match item with
  | .map entries =>
    let given (key : String) : Option Value := (Entries.get? entries key).filter (·.isTruthy)
    ((given "run_id").or (given "id")).bind (·.denial?)
  | _ => none

/-- The id of a model, without the blanks around it. -/
def checkModelId (v : Value) : Checked String :=
  (text v).andThen fun s =>
    if Text.isAllBlank s then .fail (.rule "model_id cannot be empty") else .valid (Text.trim s)

/-- The key among an alias and a name that a field has been read from. -/
def claimedKey (entries : Entries) (keys : List String) : List String :=
  ((claim? entries keys).map (·.1)).toList

def Step.check (entries : Entries) : Checked Step :=
  let idKeys := ["run_id", "id"]
  Step.mk <$> required entries idKeys text <*> required entries ["model_id"] checkModelId <*>
    withDefault entries "condition" none StepCondition.check <*>
    withDefault entries "input_map" [] checkInputs <*>
    withDefault entries "on_error" .warnAndContinue FailurePolicy.check <*>
    withDefault entries "section_label" "" text <*>
    unclaimed entries (claimedKey entries idKeys ++
      ["model_id", "condition", "input_map", "on_error", "section_label"])

def checkIntakeFields (v : Value) : Checked (List IntakeField) :=
  match v with
  | .none => .valid []
  | v => listOf (record "IntakeField" IntakeField.check) v

/-- The steps of a playbook, of which there has to be one at least. -/
def checkSteps (v : Value) : Checked (List Step) :=
  (listOf (fun v => record "StepDefinition" Step.check (withStepId v)) v).andThen fun steps =>
    if steps.isEmpty then .fail (.tooFew 1 0) else .valid steps

/-- The ids that occur more than once, each once, in ascending order. -/
def repeatedIds (ids : List String) : List String :=
  (ids.filter fun i => 1 < ids.count i).eraseDups.mergeSort (fun a b => decide (a ≤ b))

/-- Reads the fields of a playbook. -/
def checkFields (entries : Entries) : Checked Playbook :=
  let stepKeys := ["models", "steps"]
  Playbook.mk <$> required entries ["id"] text <*> required entries ["version"] versionText <*>
    withDefault entries "name" "" text <*> withDefault entries "description" "" text <*>
    withDefault entries "intake_fields" [] checkIntakeFields <*>
    required entries stepKeys checkSteps <*>
    unclaimed entries (claimedKey entries stepKeys ++
      ["id", "version", "name", "description", "intake_fields"])

/-- Reads a playbook; the ids of its steps have to differ. -/
def check (entries : Entries) : Checked Playbook :=
  (checkFields entries).andThen fun playbook =>
    match repeatedIds (playbook.steps.map (·.id)) with
    | [] => .valid playbook
    | ids => .fail (.rule ("Duplicate step ids: " ++ ", ".intercalate ids))

/-- The ids that steps share, if there is nothing else against a document. -/
def sharedIds (entries : Entries) : List String :=
  match checkFields entries with
  | .valid playbook => repeatedIds (playbook.steps.map (·.id))
  | .invalid _ => []

/-- The items that the steps of a playbook are read from. -/
def stepItems? (entries : Entries) : Option (List Value) :=
  ((entries.get? "models").or (entries.get? "steps")).bind items?

/-- The first denial among the items of the list of steps. -/
def stepDenial? (entries : Entries) : Option Fault :=
  ((stepItems? entries).getD []).findSome? idDenial?

/-- The denial of a document whose id and version are asked for. -/
def denial? (entries : Entries) : Option Fault :=
  ((entries.get? "id").bind (·.denial?)).or ((entries.get? "version").bind (·.denial?))

/-- What a document lacks before anything else is looked at. -/
def lacks (entries : Entries) : List String :=
  let id := if (entries.get? "id").any (·.isTruthy) then []
    else ["Playbook must declare an \"id\" field"]
  let version :=
    match entries.get? "version" with
    | none | some .none | some (.text "") => ["Playbook must declare a \"version\" field"]
    | _ => []
  let steps :=
    match (entries.get? "steps").or (entries.get? "models") with
    | some (.list (_ :: _)) => []
    | _ => ["Playbook must declare a non-empty \"steps\" list"]
  id ++ version ++ steps

/-- The playbook that a document writes. -/
def ofDocument (document : Value) : Except Error Playbook :=
  match document with
  | .map entries =>
    match denial? entries, lacks entries with
    | some f, _ => .error (.fault f)
    | none, [] =>
      if hasTextKeys entries then
        match stepDenial? entries, check entries with
        | some f, _ => .error (.fault f)
        | none, .valid playbook => .ok playbook
        | none, .invalid issues =>
          -- The line about shared ids is encoded.
          if (sharedIds entries).all Text.isEncodable then
            .error (.malformedPlaybook "Failed to parse playbook" (issues.map (·.line)))
          else .error (.fault .badText)
      else .error (.fault badKey)
    | none, errors =>
      .error (.malformedPlaybook ("Malformed playbook: " ++ "; ".intercalate errors) errors)
  | _ => .error (.malformedPlaybook "Playbook must be a YAML mapping" [])

/-- The playbook that a YAML text writes. -/
def ofText (text : String) : Except Error Playbook :=
  match Yaml.read text with
  | .ok document => ofDocument document
  | .error (.malformed problem) => .error (.malformedPlaybook ("Invalid YAML: " ++ problem.text) [])
  | .error (.misfit fault) => .error (.fault fault)

end ModelPlaybook.Playbook
