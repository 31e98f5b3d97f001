import Mathlib.Data.List.Forall2
import Asante.Model.Bridge

/-!
# No Content in Exported Spans

Two runs of the tracing bridge side by side, given traces and spans that have
the same structure and may differ in everything else.

`Alike` says what the structure is: the identifiers, the type, the name and the
model of a span, and whether it has an error. One callback takes a processor to
the same state in both runs (`handle_alike`), so by induction both runs perform
the same operations (`bridge_exports_structure`): nothing that is exported
depends on an input, an output, an argument, a prompt, or what an error says.

The OTel context that is current belongs to the application around the
processor, and is the same in both runs.

## Main definitions

* `AgentsTrace.Alike`, `AgentsSpan.Alike`, `Callback.Alike`: The same structure.

## Theorems

* `errorTruthy_eq_isSome`: An error counts as one whatever it says.
* `handle_alike`: One callback cannot tell alike events apart.
* `bridge_exports_structure`: The operations depend on the structure alone.
-/

namespace Asante

/-- Two traces have the same identifier and name. -/
structure AgentsTrace.Alike (trace trace' : AgentsTrace) : Prop where
  traceId : trace.traceId = trace'.traceId
  name : trace.name = trace'.name

/-- Two spans have the same structure, and both have an error or neither has. -/
structure AgentsSpan.Alike (span span' : AgentsSpan) : Prop where
  spanId : span.spanId = span'.spanId
  traceId : span.traceId = span'.traceId
  parentId : span.parentId = span'.parentId
  type : span.spanData.type = span'.spanData.type
  name : span.spanData.name = span'.spanData.name
  model : span.spanData.model = span'.spanData.model
  error : span.error.isSome = span'.error.isSome

/-- Two callbacks are the same one, about alike traces or spans. -/
def Callback.Alike : Callback → Callback → Prop
  | .onTraceStart trace, .onTraceStart trace' => trace.Alike trace'
  | .onTraceEnd trace, .onTraceEnd trace' => trace.Alike trace'
  | .onSpanStart span, .onSpanStart span' => span.Alike span'
  | .onSpanEnd span, .onSpanEnd span' => span.Alike span'
  | .shutdown, .shutdown => True
  | .forceFlush, .forceFlush => True
  | _, _ => False

/-- An error is a dictionary with items, so it counts whatever it says. -/
theorem errorTruthy_eq_isSome (error : Option SpanError) : errorTruthy error = error.isSome := by
  cases error with
  | none => rfl
  | some e => rfl

namespace Processor

theorem onTraceStart_alike {trace trace' : AgentsTrace} (h : trace.Alike trace')
    (current : OtelContext) (p : Processor) :
    p.onTraceStart current trace = p.onTraceStart current trace' := by
  simp only [onTraceStart, h.traceId, h.name]

theorem onTraceEnd_alike {trace trace' : AgentsTrace} (h : trace.Alike trace') (p : Processor) :
    p.onTraceEnd trace = p.onTraceEnd trace' := by
  simp only [onTraceEnd, h.traceId]

theorem onSpanStart_alike {span span' : AgentsSpan} (h : span.Alike span')
    (current : OtelContext) (p : Processor) :
    p.onSpanStart current span = p.onSpanStart current span' := by
  have hparent : p.parentOf span = p.parentOf span' := by
    rw [parentOf, parentOf, h.parentId, h.traceId]
  simp only [onSpanStart, hparent, h.spanId, h.type, h.name, h.model]

theorem onSpanEnd_alike {span span' : AgentsSpan} (h : span.Alike span') (p : Processor) :
    p.onSpanEnd span = p.onSpanEnd span' := by
  -- Of the error only its presence is read.
  have herror : errorTruthy span.error = errorTruthy span'.error := by
    rw [errorTruthy_eq_isSome, errorTruthy_eq_isSome, h.error]
  simp only [onSpanEnd, h.spanId, herror]

/-- One callback takes a processor to the same state, and performs the same
    operations, for alike events. -/
theorem handle_alike {callback callback' : Callback} (h : callback.Alike callback')
    (current : OtelContext) (p : Processor) :
    p.handle (current, callback) = p.handle (current, callback') := by
  cases callback with
  | onTraceStart trace =>
      cases callback' with
      | onTraceStart trace' => exact onTraceStart_alike h current p
      | _ => exact absurd h id
  | onTraceEnd trace =>
      cases callback' with
      | onTraceEnd trace' => exact onTraceEnd_alike h p
      | _ => exact absurd h id
  | onSpanStart span =>
      cases callback' with
      | onSpanStart span' => exact onSpanStart_alike h current p
      | _ => exact absurd h id
  | onSpanEnd span =>
      cases callback' with
      | onSpanEnd span' => exact onSpanEnd_alike h p
      | _ => exact absurd h id
  | shutdown =>
      cases callback' with
      | shutdown => rfl
      | _ => exact absurd h id
  | forceFlush =>
      cases callback' with
      | forceFlush => rfl
      | _ => exact absurd h id

/-- From the same state, alike callbacks lead to the same state. -/
theorem foldl_handle_alike {events events' : List (OtelContext × Callback)}
    (h : List.Forall₂ (fun e e' => e.1 = e'.1 ∧ e.2.Alike e'.2) events events') (p : Processor) :
    events.foldl handle p = events'.foldl handle p := by
  induction h generalizing p with
  | nil => rfl
  | @cons e e' events events' halike _ ih =>
      rcases halike with ⟨hcontext, hcallback⟩
      rcases e with ⟨current, callback⟩
      rcases e' with ⟨current', callback'⟩
      dsimp only at hcontext
      rw [List.foldl_cons, List.foldl_cons, hcontext, handle_alike hcallback, ih]

end Processor

/-- Callbacks that come in the same order, about traces and spans with the same
    structure, make the bridge perform the same operations: the same spans with
    the same names, parents and attributes, the same statuses, the same ends. -/
theorem bridge_exports_structure {events events' : List (OtelContext × Callback)}
    (h : List.Forall₂ (fun e e' => e.1 = e'.1 ∧ e.2.Alike e'.2) events events') :
    (Processor.run events).tracer.ops = (Processor.run events').tracer.ops :=
  congrArg (·.tracer.ops) (Processor.foldl_handle_alike h .new)

/-- A tool call that fails, with something in every field that is not read. -/
def failingToolCall (said : String) : List (OtelContext × Callback) :=
  let current : OtelContext := { span := some (.outside "http.request"), entries := [] }
  let span : AgentsSpan :=
    { spanId := "span-test"
      traceId := "trace-test"
      parentId := none
      spanData :=
        { type := some "function"
          name := some (.str "issue_guest_credit")
          model := none
          content := [("input", .str said), ("output", .str said)] }
      error := some { message := said, data := .str said }
      content := [("started_at", .str said)] }
  let trace : AgentsTrace :=
    { traceId := "trace-test", name := some (.str "Agent workflow"),
      content := [("metadata", .str said)] }
  [(current, .onTraceStart trace), (current, .onSpanStart span), (current, .onSpanEnd span),
    (current, .onTraceEnd trace), (current, .shutdown)]

theorem bridge_exports_structure_sample :
    (Processor.run (failingToolCall "SECRET PROMPT DATA")).tracer.ops =
      (Processor.run (failingToolCall "")).tracer.ops := by
  refine bridge_exports_structure ?_
  exact .cons ⟨rfl, ⟨rfl, rfl⟩⟩ (.cons ⟨rfl, ⟨rfl, rfl, rfl, rfl, rfl, rfl, rfl⟩⟩
    (.cons ⟨rfl, ⟨rfl, rfl, rfl, rfl, rfl, rfl, rfl⟩⟩ (.cons ⟨rfl, ⟨rfl, rfl⟩⟩
      (.cons ⟨rfl, trivial⟩ .nil))))

end Asante
