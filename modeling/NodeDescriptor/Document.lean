import NodeDescriptor.Diagnostic.Report
import NodeDescriptor.Entry.Stage
import NodeDescriptor.Model

/-!
# Checking documents

A document is an object of entries. A pipeline runs its stages over every entry and keeps the
nodes of those in which no error was found; whatever was found goes into the report, in the
order of the document. Comments are skipped, and a document without any entry is an error.

A document is accepted if its report holds no error; strictly, if its report is empty.
-/

set_option autoImplicit false

namespace NodeDescriptor

/-! ## Outcomes -/

/-- The model and the report made from a document. -/
structure Outcome where
  model : Model
  report : Report
  deriving DecidableEq

/-- The refusal of a document, with everything that was found. -/
structure Rejection where
  diagnostics : List Diagnostic
  deriving DecidableEq

def Rejection.message (rejection : Rejection) : String :=
  "Document rejected with " ++ toString rejection.diagnostics.length ++ " diagnostic(s)"

namespace Outcome

def isAccepted (outcome : Outcome) (strict : Bool) : Bool :=
  if strict then outcome.report.isEmpty else !outcome.report.hasErrors

/-- The model of a document that is accepted, normally or strictly. -/
def result (outcome : Outcome) (strict : Bool) : Except Rejection Model :=
  if outcome.isAccepted strict then .ok outcome.model
  else .error ⟨outcome.report.diagnostics⟩

end Outcome

/-! ## Entries -/

/-- The stages that are run over every entry, and the options they are given. -/
structure Pipeline where
  stages : List Stage
  options : Options

namespace Pipeline

/-- All stages with the standard options. -/
def standard : Pipeline := ⟨Keyword.all, .standard⟩

/-- The node that an entry makes when no error is found in it, with all findings. -/
def checkEntry (pipeline : Pipeline) (name : String) : Json → Checked (Option Node)
  | .object members =>
      let checked :=
        Stage.runAll pipeline.stages pipeline.options ⟨name, members⟩ (Node.ofName name)
      checked.map fun node => if checked.hasErrors then none else some node
  | _ => .refused (.wrongShape "a node definition object")

/-! ## Documents -/

/-- Add what an entry makes to an outcome. -/
def addEntry (pipeline : Pipeline) (outcome : Outcome) (member : String × Json) : Outcome :=
  let checked := (pipeline.checkEntry member.1 member.2).inside (.entry member.1)
  { model := match checked.value with
      | some node => outcome.model.insert node
      | none => outcome.model
    report := outcome.report.extend checked.diagnostics }

/-- The outcome for a document with nothing but a problem. -/
def problemOutcome (problem : Problem) : Outcome :=
  ⟨.empty, ⟨[(Finding.here problem).diagnostic]⟩⟩

def check (pipeline : Pipeline) : Json → Outcome
  | .object members =>
      match Member.withoutComments members with
      | [] => problemOutcome .missing
      | entries => entries.foldl pipeline.addEntry ⟨.empty, .empty⟩
  | _ => problemOutcome (.wrongShape "an object of node definitions")

/-- Check the text of a document, if it is JSON. -/
def checkText? (pipeline : Pipeline) (text : String) : Option Outcome :=
  (Json.read? text).map pipeline.check

end Pipeline

end NodeDescriptor
