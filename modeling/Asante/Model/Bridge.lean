import Asante.Core.Dict
import Asante.Model.Python

/-!
# The Tracing Bridge

The processor that mirrors the traces and spans of the agents SDK into
OpenTelemetry.

The tracer is what the processor talks to: it numbers the spans it starts and
keeps the operations performed on it and on its spans, oldest first, so what is
exported is a value of the model. Every callback reads the OTel context that is
current when it comes. The fields of traces and spans that the processor does
not read are there as well, since what is claimed of it is that they make no
difference.

## Main definitions

* `OtelSpan`, `OtelContext`, `OtelOp`, `Tracer`: The OpenTelemetry side.
* `AgentsTrace`, `AgentsSpan`, `SpanData`, `SpanError`: What callbacks are given.
* `otelSpanName`, `genAiOperation`, `spanAttributes`: What is written of a span.
* `Processor`: The three maps and the tracer.
* `Callback`, `Processor.handle`, `Processor.run`: The callbacks, one and many.
-/

namespace Asante

open Asante.Core

/-- A span a context can hold: one of those the tracer started, or any other. -/
inductive OtelSpan where
  | started (n : Nat)
  | outside (spanId : String)
  deriving DecidableEq

/-- An OTel context: the span that is current in it, and its other entries. -/
structure OtelContext where
  span : Option OtelSpan
  entries : PyDict

/-- `otel_trace.set_span_in_context(span)` in the context that is current. -/
def OtelContext.setSpan (current : OtelContext) (n : Nat) : OtelContext :=
  { current with span := some (.started n) }

/-- `StatusCode`. -/
inductive StatusCode where
  | unset
  | ok
  | error
  deriving DecidableEq

/-- An operation on the tracer or on a span it started. -/
inductive OtelOp where
  | startSpan (n : Nat) (name : String) (context : OtelContext) (attributes : PyDict)
  | setStatus (n : Nat) (code : StatusCode)
  | setAttribute (n : Nat) (key : String) (value : PyVal)
  | endSpan (n : Nat)

/-- A tracer: the number of spans it has started, and the operations so far. -/
structure Tracer where
  next : Nat
  ops : List OtelOp

namespace Tracer

/-- A tracer that has not been used. -/
def new : Tracer :=
  { next := 0, ops := [] }

/-- `tracer.start_span`, answered with the new span. -/
def startSpan (name : String) (context : OtelContext) (attributes : PyDict) (t : Tracer) :
    Nat × Tracer :=
  (t.next, { next := t.next + 1, ops := t.ops ++ [.startSpan t.next name context attributes] })

/-- `span.set_status(Status(code))`. -/
def setStatus (n : Nat) (code : StatusCode) (t : Tracer) : Tracer :=
  { t with ops := t.ops ++ [.setStatus n code] }

/-- `span.set_attribute`. -/
def setAttribute (n : Nat) (key : String) (value : PyVal) (t : Tracer) : Tracer :=
  { t with ops := t.ops ++ [.setAttribute n key value] }

/-- `span.end()`. -/
def endSpan (n : Nat) (t : Tracer) : Tracer :=
  { t with ops := t.ops ++ [.endSpan n] }

/-- `for span in spans: span.end()`. -/
def endAll (spans : List Nat) (t : Tracer) : Tracer :=
  spans.foldl (fun t n => t.endSpan n) t

end Tracer

/-- A trace of the agents SDK. The name may be missing; `content` are the fields
    that are never read. -/
structure AgentsTrace where
  traceId : String
  name : Option PyVal
  content : PyDict

/-- The data of a span: inputs, outputs and the like are in `content`. -/
structure SpanData where
  type : Option String
  name : Option PyVal
  model : Option PyVal
  content : PyDict

/-- `SpanError`. -/
structure SpanError where
  message : String
  data : PyVal

/-- The dictionary an error is. -/
def SpanError.toDict (e : SpanError) : PyDict :=
  [("message", .str e.message), ("data", e.data)]

/-- A span of the agents SDK. -/
structure AgentsSpan where
  spanId : String
  traceId : String
  parentId : Option String
  spanData : SpanData
  error : Option SpanError
  content : PyDict

/-- `if error:`, for an error or `None`. -/
def errorTruthy : Option SpanError → Bool
  | none => false
  | some e => !e.toDict.isEmpty

/-- The string under `isinstance(value, str) and value`. -/
def nonemptyStr : PyVal → Option String
  | .str s => if s = "" then none else some s
  | _ => none

/-- `_otel_span_name`. -/
def otelSpanName (spanType : String) (safeName : PyVal) : String :=
  match spanType, nonemptyStr safeName with
  | "agent", some name => "openai.agent " ++ name
  | "function", some name => "openai.tool " ++ name
  | _, _ => "openai." ++ spanType

/-- `_gen_ai_operation`. -/
def genAiOperation (spanType : String) : Option String :=
  [("agent", "invoke_agent"), ("generation", "chat"), ("function", "execute_tool")].lookup spanType

/-- `attributes[key] = value`, if there is a value. -/
def setSome (attributes : PyDict) (key : String) : Option String → PyDict
  | none => attributes
  | some value => attributes.set key (.str value)

/-- The attributes `on_span_start` gives a mirrored span. -/
def spanAttributes (spanType : String) (safeName safeModel : PyVal) : PyDict :=
  let attributes : PyDict :=
    [("asante.component", .str "agent_runtime"), ("openai.agents.span.type", .str spanType)]
  let attributes := setSome attributes "gen_ai.operation.name" (genAiOperation spanType)
  let attributes := setSome attributes "openai.agents.operation.name" (nonemptyStr safeName)
  setSome attributes "gen_ai.request.model" (nonemptyStr safeModel)

/-- `OpenAIAgentsOpenTelemetryProcessor`. -/
structure Processor where
  tracer : Tracer
  traceRoots : Dict String Nat
  traceParentContexts : Dict String OtelContext
  spans : Dict String Nat

namespace Processor

/-- The processor as it is constructed. -/
def new : Processor :=
  { tracer := .new, traceRoots := .empty, traceParentContexts := .empty, spans := .empty }

/-- `on_trace_start`. -/
def onTraceStart (current : OtelContext) (trace : AgentsTrace) (p : Processor) : Processor :=
  let root := p.tracer.startSpan "openai.agents.workflow" current
    [("asante.component", .str "agent_runtime"),
      ("gen_ai.operation.name", .str "agent_workflow"),
      ("openai.agents.workflow.name", trace.name.getD (.str "Agent workflow"))]
  { p with
    tracer := root.2
    traceRoots := p.traceRoots.set trace.traceId root.1
    traceParentContexts := p.traceParentContexts.set trace.traceId current }

/-- `on_trace_end`. -/
def onTraceEnd (trace : AgentsTrace) (p : Processor) : Processor :=
  { p with
    tracer := match p.traceRoots.get? trace.traceId with
      | some root => p.tracer.endSpan root
      | none => p.tracer
    traceRoots := p.traceRoots.erase trace.traceId
    traceParentContexts := p.traceParentContexts.erase trace.traceId }

/-- The mirrored span a new span goes under: its parent, or else the root of its
    trace. -/
def parentOf (span : AgentsSpan) (p : Processor) : Option Nat :=
  (span.parentId.bind p.spans.get?).or (p.traceRoots.get? span.traceId)

/-- `on_span_start`. -/
def onSpanStart (current : OtelContext) (span : AgentsSpan) (p : Processor) : Processor :=
  let spanType := span.spanData.type.getD "unknown"
  let safeName := span.spanData.name.getD .none
  let safeModel := span.spanData.model.getD .none
  let parentContext := match p.parentOf span with
    | some parent => current.setSpan parent
    | none => current
  let mirrored := p.tracer.startSpan (otelSpanName spanType safeName) parentContext
    (spanAttributes spanType safeName safeModel)
  { p with tracer := mirrored.2, spans := p.spans.set span.spanId mirrored.1 }

/-- `on_span_end`. -/
def onSpanEnd (span : AgentsSpan) (p : Processor) : Processor :=
  match p.spans.get? span.spanId with
  | none => p
  | some mirrored =>
    let marked := if errorTruthy span.error then
        (p.tracer.setStatus mirrored .error).setAttribute mirrored "error.type"
          (.str "openai.agents.span_error")
      else p.tracer
    { p with tracer := marked.endSpan mirrored, spans := p.spans.erase span.spanId }

/-- `shutdown`. -/
def shutdown (p : Processor) : Processor :=
  { tracer := (p.tracer.endAll p.spans.values).endAll p.traceRoots.values
    traceRoots := .empty
    traceParentContexts := .empty
    spans := .empty }

/-- `force_flush`. -/
def forceFlush (p : Processor) : Processor :=
  p

end Processor

/-- A callback of the agents SDK. -/
inductive Callback where
  | onTraceStart (trace : AgentsTrace)
  | onTraceEnd (trace : AgentsTrace)
  | onSpanStart (span : AgentsSpan)
  | onSpanEnd (span : AgentsSpan)
  | shutdown
  | forceFlush

namespace Processor

/-- One callback, with the OTel context that is current when it comes. -/
def handle (p : Processor) (event : OtelContext × Callback) : Processor :=
  match event.2 with
  | .onTraceStart trace => p.onTraceStart event.1 trace
  | .onTraceEnd trace => p.onTraceEnd trace
  | .onSpanStart span => p.onSpanStart event.1 span
  | .onSpanEnd span => p.onSpanEnd span
  | .shutdown => p.shutdown
  | .forceFlush => p.forceFlush

/-- The processor after some callbacks. -/
def run (events : List (OtelContext × Callback)) : Processor :=
  events.foldl handle .new

end Processor

end Asante
