import GraphRequest.Query.Assembly
import GraphRequest.Selection.Envelope
import GraphRequest.Schema.Introspection

/-!
# Generating queries

A request becomes a plan: the root field it resolves to, the arguments bound for it, the selection
below it, and all that was gathered on the way. The plan becomes a document.

* `Schema.plan` makes the plan, `Plan.assembleBy` the document.
* `Schema.generate` takes a request in any accepted form.
* `Schema.generateAll` generates several, each taking up the numbering where the last one left it.
-/

namespace GraphRequest

/-- What a request compiles to before it is written. -/
structure Plan where
  operation : OperationType
  field : String
  arguments : List BoundArgument
  items : List Item
  bindings : Bindings

namespace Plan

/-- The parts of the document of a plan. -/
def parts (p : Plan) : Assembly.Parts :=
  Assembly.parts p.operation.text p.field (p.arguments.map BoundArgument.text)
    (p.items.map Item.text) p.bindings

/-- The compiled query of a plan. The reader says which document a text is. -/
def assembleBy (read : String → Option Document) (p : Plan) (fragments : List Value) :
    Except Failure CompiledQuery :=
  Assembly.assembleBy read p.operation.text p.field (p.arguments.map BoundArgument.text)
    (p.items.map Item.text) p.bindings fragments

end Plan

namespace Schema

/-- The selection of a request on its root field, in the envelope if there is one. -/
def planItems (s : Schema) (r : Request) (f : RootField) : Step (List Item) := do
  match ← s.envelope (some r.action) f.field with
  | some e =>
    let items ← s.compileRoot r e.row false [f.name]
    return Envelope.wrap items
  | none =>
    let base ← Step.of f.field.base
    s.compileRoot r base.name r.isAggregate [f.name]

/-- The arguments and the selection of a request on its root field. -/
def planRoot (s : Schema) (r : Request) (f : RootField) :
    Step (List BoundArgument × List Item) := do
  let arguments ← r.bindRoot f.field
  let items ← s.planItems r f
  return (arguments, items)

/-- The plan of a request. -/
def plan (s : Schema) (r : Request) : Except Failure Plan := do
  let root ← s.resolve r
  let ((arguments, items), bindings) ← (s.planRoot r root).result (Bindings.start r.counter)
  .ok ⟨r.action.operationType, root.name, arguments, items, bindings⟩

/-- The compiled query of a request. The reader says which document a text is. -/
def compileBy (read : String → Option Document) (s : Schema) (r : Request) :
    Except Failure CompiledQuery := do
  let plan ← s.plan r
  plan.assembleBy read r.fragments

/-- The compiled query of a request. -/
def compile (s : Schema) (r : Request) : Except Failure CompiledQuery :=
  s.compileBy Document.ofText? r

/-- The compiled query of the request that a value describes. -/
def generate (s : Schema) (request : Value) : Except Failure CompiledQuery := do
  let r ← Request.ofValue request
  s.compile r

/-- The compiled query of a request against the schema of an introspection answer. -/
def generateFrom (introspection request : Value) : Except Failure CompiledQuery := do
  let s ← ofIntrospection introspection
  s.generate request

/-! ### Marks -/

/-- The schema after a request was compiled, whether that failed or not. -/
def afterCompiling (s : Schema) (r : Request) : Schema :=
  match s.resolve r with
  | .error _ => s
  | .ok root => s.putMarks ((s.planRoot r root).gathered (Bindings.start r.counter)).marks

/-- The schema after the request that a value describes was compiled. -/
def afterGenerating (s : Schema) (request : Value) : Schema :=
  match Request.ofValue request with
  | .error _ => s
  | .ok r => s.afterCompiling r

/-! ### Several requests -/

/-- A request whose first variable has the given number. -/
def renumber (request : Value) (counter : Int) : Value :=
  match request with
  | .obj fields => .obj (Keyed.put "incoming_var_counter" (.int counter) fields)
  | v => v

/-- The compiled queries of several requests. When they are chained, each one after the first
success takes up the numbering where the last success left it. -/
def generateAll (chain : Bool) :
    Schema → Option Int → List Value → List (Except Failure CompiledQuery)
  | _, _, [] => []
  | s, counter, request :: rest =>
    let numbered := match counter with
      | some n => renumber request n
      | none => request
    let result := s.generate numbered
    let next := match result with
      | .ok q => if chain then some q.nextCounter else none
      | .error _ => counter
    result :: generateAll chain (s.afterGenerating numbered) next rest

end Schema

end GraphRequest
