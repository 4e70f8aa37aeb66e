import Shaderlift.Analysis.Legality
import Shaderlift.Model.Build
import Shaderlift.Output.Unit
import Shaderlift.Source.Parser.Decl

/-!
From source text to output text. The source is parsed, the shader type is found, all rules are applied,
and only a shader that breaks none of them is lowered and printed. A report of errors is sorted; a result
carries warnings only.
-/

namespace Shaderlift

/-- Why there is no output. -/
inductive TranspileError where
  | unreadable (error : SyntaxError)
  | typeNotFound (name : String)
  | rejected (report : Report)

def TranspileError.message : TranspileError → String
  | .unreadable error => "parse error: " ++ error.render
  | .typeNotFound name => "no shader type named " ++ Text.quoted name ++ " in the source"
  | .rejected report => report.render

/-- A shader with its output. -/
structure Transpiled where
  typeName : String
  hlsl : String
  model : ShaderModel
  bindings : List Binding
  ids : SpecialIds
  report : Report

def findShader (source name : String) : Except TranspileError (SourceUnit × TypeDecl) :=
  match SourceUnit.parse source with
  | .error error => .error (.unreadable error)
  | .ok unit =>
    match (TypeIndex.build unit).find? name with
    | some entry => .ok (unit, entry.decl)
    | none => .error (.typeNotFound name)

namespace Program

/-- Lower and print a program that breaks no rule so far. -/
def finish (program : Program) (blank : Blank) (model : ShaderModel) (report : Report) (entry : MethodDecl)
    (memo : CallMemo) : Except TranspileError Transpiled :=
  let ((lowered, found), _) := program.lower model blank entry memo
  let whole := report ++ found
  if whole.hasErrors then .error (.rejected whole.sorted)
  else
    let bindings := Binding.table model
    .ok
      { typeName := program.shader.name
        hlsl := OutUnit.render program model lowered bindings
        model, bindings
        ids := lowered.ids
        report := whole }

/-- Apply all rules to a program that begins with a report, then lower and print it. -/
def transpile (program : Program) (blank : Blank) (config : Config) (start : Report) :
    Except TranspileError Transpiled :=
  let (legality, memo) := program.legality .empty
  let ((model, found), memo) := ShaderModel.build program config memo
  let report := (start ++ legality ++ found).sorted
  if report.hasErrors then .error (.rejected report)
  else
    match program.entry with
    | some (_, entry) => program.finish blank model report entry memo
    | none => .error (.rejected report)

end Program

/-- Turn the shader type of a name in a source text into output text, given what is written for constructs
that cannot be. -/
def transpileWith (blank : Blank) (source name : String) (config : Config) :
    Except TranspileError Transpiled :=
  match findShader source name with
  | .error error => .error error
  | .ok (unit, decl) =>
    match Program.build unit decl with
    | (none, report) => .error (.rejected report)
    | (some program, report) => program.transpile blank config report

/-- Turn the shader type of a name in a source text into output text. -/
def transpile (source name : String) (config : Config) : Except TranspileError Transpiled :=
  transpileWith .standard source name config

def Diagnostic.toJson (diagnostic : Diagnostic) : Json :=
  .obj [("id", .str diagnostic.rule.name), ("severity", .str diagnostic.severity.title),
    ("message", .str diagnostic.message), ("span", .ofOption Span.toJson diagnostic.span)]

def Report.toJson (report : Report) : Json := .obj [("items", .ofList Diagnostic.toJson report)]

def Transpiled.toJson (shader : Transpiled) : Json :=
  .obj [("type_name", .str shader.typeName), ("hlsl", .str shader.hlsl), ("model", shader.model.toJson),
    ("bindings", Binding.tableToJson shader.bindings), ("special_ids", .str shader.ids.render),
    ("diagnostics", Report.toJson shader.report), ("entry_point", .str entryPoint)]

end Shaderlift
