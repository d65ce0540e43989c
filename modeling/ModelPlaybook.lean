import ModelPlaybook.Workspace
import ModelPlaybook.Proofs.Expression.ConditionFailures
import ModelPlaybook.Proofs.Expression.ExactValue
import ModelPlaybook.Proofs.Expression.FirstFault
import ModelPlaybook.Proofs.Expression.LexicalFaults
import ModelPlaybook.Proofs.Expression.Overflow
import ModelPlaybook.Proofs.Expression.Rendering
import ModelPlaybook.Proofs.Expression.StrictComparison
import ModelPlaybook.Proofs.Files.EntryNames
import ModelPlaybook.Proofs.Model.LoadingFailures
import ModelPlaybook.Proofs.Playbook.Calls
import ModelPlaybook.Proofs.Playbook.Completion
import ModelPlaybook.Proofs.Playbook.Exchange
import ModelPlaybook.Proofs.Playbook.Finish
import ModelPlaybook.Proofs.Playbook.KeySpelling
import ModelPlaybook.Proofs.Playbook.LoadedInputs
import ModelPlaybook.Proofs.Playbook.LoadingFailures
import ModelPlaybook.Proofs.Playbook.NumberChecks
import ModelPlaybook.Proofs.Playbook.OutputReferences
import ModelPlaybook.Proofs.Playbook.Passage
import ModelPlaybook.Proofs.Playbook.ReferenceInputs
import ModelPlaybook.Proofs.Playbook.Reporting
import ModelPlaybook.Proofs.Playbook.ReviewSoundness
import ModelPlaybook.Proofs.Sandbox.Deviation
import ModelPlaybook.Proofs.Sandbox.Disposal
import ModelPlaybook.Proofs.Expression.ResultKind
import ModelPlaybook.Proofs.Model.InputViolations
import ModelPlaybook.Proofs.Model.ListedValues
import ModelPlaybook.Proofs.Sandbox.FirstOffence
import ModelPlaybook.Proofs.Expression.Dialects
import ModelPlaybook.Proofs.Sandbox.Freezing
import ModelPlaybook.Proofs.Value.MissingKeys
import ModelPlaybook.Proofs.Script.Assigning
import ModelPlaybook.Proofs.Number.Nearest
import ModelPlaybook.Proofs.Number.ShortestText
import ModelPlaybook.Proofs.Number.Dotted
import ModelPlaybook.Proofs.Value.Alteration
import ModelPlaybook.Proofs.Yaml.Alteration
import ModelPlaybook.Proofs.Yaml.Numerals
import ModelPlaybook.Proofs.Playbook.VersionText
