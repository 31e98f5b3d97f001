import Mathlib.Data.List.Induction
import Asante.Model.Bridge

/-!
# Mirrored Spans

The spans the tracing bridge starts, over any sequence of callbacks: which are
ended, which are still held, and what they were started under.

`Balanced` is the account of the spans. Each of the spans started is either ended
or held in one of the two maps of spans, once, so that none is lost and none is
ended twice. One callback keeps it as long as it does not start a trace or a
span under an identifier that is still held: the assignment would overwrite the
only reference to a span that has not been ended. That identifiers are started
once rules this out, through `Attributed`, by which whatever is held was started
by a callback for its identifier.

`Attributed` also gives the parents. A span is started under a span held for its
parent's identifier or under the root held for its trace, so the parent mirrors
a span of the same trace, or is that root.

## Main definitions

* `Tracer.spansStarted`, `Tracer.spansEnded`: What the operations started and ended.
* `Mirrors`: A callback started a span.
* `WellIdentified`: Identifiers are started once, parents are of the same trace.
* `Balanced`: Every span started is ended or held, once.
* `Attributed`: Every span held was started for the identifier it is held under.

## Theorems

* `handle_balanced`, `run_balanced`: The account is kept.
* `run_attributed`: What is held was started for its identifier.
* `onSpanStart_parent`: What a span is started under.
* `bridge_mirrors`: The bridge loses and double-ends no span and crosses no traces.
-/

namespace Asante

open Asante.Core

/-- The span an operation starts. -/
def OtelOp.starts : OtelOp → Option Nat
  | .startSpan n _ _ _ => some n
  | _ => none

/-- The span an operation ends. -/
def OtelOp.ends : OtelOp → Option Nat
  | .endSpan n => some n
  | _ => none

namespace Tracer

/-- The spans that were started, in order. -/
def spansStarted (t : Tracer) : List Nat :=
  t.ops.filterMap OtelOp.starts

/-- The spans that were ended, in order, as often as they were. -/
def spansEnded (t : Tracer) : List Nat :=
  t.ops.filterMap OtelOp.ends

@[simp] theorem spansStarted_startSpan (t : Tracer) (name : String) (context : OtelContext)
    (attributes : PyDict) :
    (t.startSpan name context attributes).2.spansStarted = t.spansStarted ++ [t.next] := by
  simp only [startSpan, spansStarted, List.filterMap_append, List.filterMap_cons,
    OtelOp.starts, List.filterMap_nil]

@[simp] theorem spansEnded_startSpan (t : Tracer) (name : String) (context : OtelContext)
    (attributes : PyDict) :
    (t.startSpan name context attributes).2.spansEnded = t.spansEnded := by
  simp only [startSpan, spansEnded, List.filterMap_append, List.filterMap_cons,
    OtelOp.ends, List.filterMap_nil, List.append_nil]

@[simp] theorem spansStarted_endSpan (t : Tracer) (n : Nat) :
    (t.endSpan n).spansStarted = t.spansStarted := by
  simp only [endSpan, spansStarted, List.filterMap_append, List.filterMap_cons,
    OtelOp.starts, List.filterMap_nil, List.append_nil]

@[simp] theorem spansEnded_endSpan (t : Tracer) (n : Nat) :
    (t.endSpan n).spansEnded = t.spansEnded ++ [n] := by
  simp only [endSpan, spansEnded, List.filterMap_append, List.filterMap_cons,
    OtelOp.ends, List.filterMap_nil]

@[simp] theorem next_endSpan (t : Tracer) (n : Nat) : (t.endSpan n).next = t.next := rfl

/-- Ending several spans adds them, in order. -/
theorem endAll_spec (spans : List Nat) (t : Tracer) :
    (t.endAll spans).next = t.next ∧ (t.endAll spans).spansStarted = t.spansStarted ∧
      (t.endAll spans).spansEnded = t.spansEnded ++ spans := by
  induction spans generalizing t with
  | nil => exact ⟨rfl, rfl, (List.append_nil _).symm⟩
  | cons n spans ih =>
      rcases ih (t.endSpan n) with ⟨hnext, hstarted, hended⟩
      refine ⟨hnext, ?_, ?_⟩
      · rw [← spansStarted_endSpan t n]
        exact hstarted
      · rw [← List.singleton_append, ← List.append_assoc, ← spansEnded_endSpan]
        exact hended

/-- Marking a span with an error starts and ends none. -/
theorem mark_spec (t : Tracer) (n : Nat) (code : StatusCode) (key : String) (value : PyVal) :
    ((t.setStatus n code).setAttribute n key value).next = t.next ∧
      ((t.setStatus n code).setAttribute n key value).spansStarted = t.spansStarted ∧
      ((t.setStatus n code).setAttribute n key value).spansEnded = t.spansEnded := by
  refine ⟨rfl, ?_, ?_⟩
  · simp only [setAttribute, setStatus, spansStarted, List.filterMap_append, List.filterMap_cons,
      OtelOp.starts, List.filterMap_nil, List.append_nil]
  · simp only [setAttribute, setStatus, spansEnded, List.filterMap_append, List.filterMap_cons,
      OtelOp.ends, List.filterMap_nil, List.append_nil]

end Tracer

/-- The trace identifier a callback starts. -/
def Callback.startsTrace : Callback → Option String
  | .onTraceStart trace => some trace.traceId
  | _ => none

/-- The span identifier a callback starts. -/
def Callback.startsSpan : Callback → Option String
  | .onSpanStart span => some span.spanId
  | _ => none

/-- Each trace and each span is started at most once, and the parent of a span is
    of the same trace. -/
structure WellIdentified (events : List (OtelContext × Callback)) : Prop where
  traces : (events.filterMap fun e => e.2.startsTrace).Nodup
  spans : (events.filterMap fun e => e.2.startsSpan).Nodup
  parents : ∀ current span current' parent, (current, .onSpanStart span) ∈ events →
    (current', .onSpanStart parent) ∈ events → span.parentId = some parent.spanId →
    span.traceId = parent.traceId

/-- The number is that of the span the callback started when it came. -/
def Mirrors (events : List (OtelContext × Callback)) (n : Nat) (callback : Callback) : Prop :=
  ∃ before current after, events = before ++ (current, callback) :: after ∧
    (Processor.run before).tracer.next = n

namespace Processor

/-- Every span started is ended or held, once, and the parent contexts are kept
    with the roots. -/
structure Balanced (p : Processor) : Prop where
  numbered : p.tracer.spansStarted = List.range p.tracer.next
  accounted :
    (p.tracer.spansEnded ++ (p.spans.values ++ p.traceRoots.values)).Perm p.tracer.spansStarted
  contexts : p.traceParentContexts.keys = p.traceRoots.keys

/-- The callback starts nothing under an identifier that is held. -/
def Fresh (p : Processor) : Callback → Prop
  | .onTraceStart trace => trace.traceId ∉ p.traceRoots.keys
  | .onSpanStart span => span.spanId ∉ p.spans.keys
  | _ => True

theorem new_balanced : Balanced new where
  numbered := rfl
  accounted := List.Perm.refl _
  contexts := rfl

theorem onTraceStart_balanced {p : Processor} (h : Balanced p) {trace : AgentsTrace}
    (hnew : trace.traceId ∉ p.traceRoots.keys) (current : OtelContext) :
    Balanced (p.onTraceStart current trace) where
  numbered := by
    dsimp only [onTraceStart]
    rw [Tracer.spansStarted_startSpan, h.numbered]
    exact List.range_succ.symm
  accounted := by
    dsimp only [onTraceStart]
    rw [Tracer.spansStarted_startSpan, Tracer.spansEnded_startSpan, Dict.values_set_new hnew,
      ← List.append_assoc, ← List.append_assoc, List.append_assoc p.tracer.spansEnded]
    exact h.accounted.append_right _
  contexts := by
    dsimp only [onTraceStart]
    rw [Dict.keys_set_new hnew, Dict.keys_set_new (h.contexts ▸ hnew), h.contexts]

theorem onTraceEnd_balanced {p : Processor} (h : Balanced p) (trace : AgentsTrace) :
    Balanced (p.onTraceEnd trace) := by
  have hkeys : (p.traceParentContexts.erase trace.traceId).keys =
      (p.traceRoots.erase trace.traceId).keys := by
    rw [Dict.keys_erase, Dict.keys_erase, h.contexts]
  rcases hroot : p.traceRoots.get? trace.traceId with _ | root
  · -- The trace was not started, or has ended: nothing is held for it.
    refine ⟨?_, ?_, hkeys⟩ <;> simp only [onTraceEnd, hroot, Dict.erase_of_get?_none hroot]
    · exact h.numbered
    · exact h.accounted
  · refine ⟨?_, ?_, hkeys⟩ <;> simp only [onTraceEnd, hroot, Tracer.spansStarted_endSpan,
      Tracer.spansEnded_endSpan, Tracer.next_endSpan]
    · exact h.numbered
    · -- The root leaves the map and joins the spans ended.
      refine List.Perm.trans ?_ h.accounted
      rw [List.append_assoc]
      refine List.Perm.append_left _ ?_
      rw [List.singleton_append]
      refine List.perm_middle.symm.trans (List.Perm.append_left _ ?_)
      exact (Dict.values_erase hroot).symm

theorem onSpanStart_balanced {p : Processor} (h : Balanced p) {span : AgentsSpan}
    (hnew : span.spanId ∉ p.spans.keys) (current : OtelContext) :
    Balanced (p.onSpanStart current span) where
  numbered := by
    dsimp only [onSpanStart]
    rw [Tracer.spansStarted_startSpan, h.numbered]
    exact List.range_succ.symm
  accounted := by
    dsimp only [onSpanStart]
    rw [Tracer.spansStarted_startSpan, Tracer.spansEnded_startSpan, Dict.values_set_new hnew]
    refine List.Perm.trans ?_ (h.accounted.append_right _)
    rw [List.append_assoc, List.append_assoc, List.append_assoc]
    exact List.Perm.append_left _ (List.Perm.append_left _ List.perm_append_comm)
  contexts := h.contexts

theorem onSpanEnd_balanced {p : Processor} (h : Balanced p) (span : AgentsSpan) :
    Balanced (p.onSpanEnd span) := by
  rcases hspan : p.spans.get? span.spanId with _ | mirrored
  · simp only [onSpanEnd, hspan]
    exact h
  · -- An error marks the span, and neither starts nor ends one.
    have hended : ∀ t : Tracer, t.next = p.tracer.next → t.spansStarted = p.tracer.spansStarted →
        t.spansEnded = p.tracer.spansEnded →
        Balanced { p with tracer := t.endSpan mirrored, spans := p.spans.erase span.spanId } := by
      intro t hnext hstarted hended
      refine ⟨?_, ?_, h.contexts⟩
      · rw [Tracer.spansStarted_endSpan, Tracer.next_endSpan, hstarted, hnext]
        exact h.numbered
      · rw [Tracer.spansStarted_endSpan, Tracer.spansEnded_endSpan, hstarted, hended]
        refine List.Perm.trans ?_ h.accounted
        rw [List.append_assoc]
        refine List.Perm.append_left _ ?_
        rw [← List.append_assoc]
        exact List.Perm.append_right _ (Dict.values_erase hspan).symm
    simp only [onSpanEnd, hspan]
    rcases hmark : errorTruthy span.error with _ | _
    · exact hended p.tracer rfl rfl rfl
    · rcases Tracer.mark_spec p.tracer mirrored .error "error.type"
        (.str "openai.agents.span_error") with ⟨hnext, hstarted, hsame⟩
      exact hended _ hnext hstarted hsame

theorem shutdown_balanced {p : Processor} (h : Balanced p) : Balanced p.shutdown := by
  rcases Tracer.endAll_spec p.spans.values p.tracer with ⟨hnext, hstarted, hended⟩
  rcases Tracer.endAll_spec p.traceRoots.values (p.tracer.endAll p.spans.values) with
    ⟨hnext', hstarted', hended'⟩
  refine ⟨?_, ?_, rfl⟩
  · dsimp only [shutdown]
    rw [hstarted', hstarted, hnext', hnext]
    exact h.numbered
  · dsimp only [shutdown]
    -- The maps are empty, and what they held is ended.
    change (_ ++ []).Perm _
    rw [hstarted', hstarted, hended', hended, List.append_nil, List.append_assoc]
    exact h.accounted

/-- One callback keeps the account. -/
theorem handle_balanced {p : Processor} (h : Balanced p) (event : OtelContext × Callback)
    (hfresh : p.Fresh event.2) : Balanced (p.handle event) := by
  rcases event with ⟨current, callback⟩
  cases callback with
  | onTraceStart trace => exact onTraceStart_balanced h hfresh current
  | onTraceEnd trace => exact onTraceEnd_balanced h trace
  | onSpanStart span => exact onSpanStart_balanced h hfresh current
  | onSpanEnd span => exact onSpanEnd_balanced h span
  | shutdown => exact shutdown_balanced h
  | forceFlush => exact h

/-- The root that is held for a trace, and the span that is held for a span, were
    started by a callback for that trace and for that span. -/
structure Attributed (events : List (OtelContext × Callback)) (p : Processor) : Prop where
  roots : ∀ id n, p.traceRoots.get? id = some n →
    ∃ trace, trace.traceId = id ∧ Mirrors events n (.onTraceStart trace)
  spans : ∀ id n, p.spans.get? id = some n →
    ∃ span, span.spanId = id ∧ Mirrors events n (.onSpanStart span)

end Processor

/-- What a callback started stays what it started when more callbacks come. -/
theorem Mirrors.append {events : List (OtelContext × Callback)} {n : Nat} {callback : Callback}
    (h : Mirrors events n callback) (more : List (OtelContext × Callback)) :
    Mirrors (events ++ more) n callback := by
  rcases h with ⟨before, current, after, hevents, hn⟩
  refine ⟨before, current, after ++ more, ?_, hn⟩
  rw [hevents, List.append_assoc, List.cons_append]

/-- A mirroring callback is one of the events. -/
theorem Mirrors.mem {events : List (OtelContext × Callback)} {n : Nat} {callback : Callback}
    (h : Mirrors events n callback) : ∃ current, (current, callback) ∈ events := by
  rcases h with ⟨before, current, after, hevents, _⟩
  rw [hevents]
  exact ⟨current, List.mem_append_right _ List.mem_cons_self⟩

namespace Processor

theorem run_snoc (events : List (OtelContext × Callback)) (event : OtelContext × Callback) :
    run (events ++ [event]) = (run events).handle event := by
  rw [run, List.foldl_append]
  rfl

theorem attributed_of_empty {p : Processor} (hroots : p.traceRoots = .empty)
    (hspans : p.spans = .empty) (events : List (OtelContext × Callback)) :
    Attributed events p where
  roots := fun id n h => by
    rw [hroots, Dict.get?_empty] at h
    exact absurd h (by simp only [reduceCtorEq, not_false_eq_true])
  spans := fun id n h => by
    rw [hspans, Dict.get?_empty] at h
    exact absurd h (by simp only [reduceCtorEq, not_false_eq_true])

/-- Whatever is held was started for the identifier it is held under, whatever
    the callbacks. -/
theorem run_attributed (events : List (OtelContext × Callback)) :
    Attributed events (run events) := by
  induction events using List.reverseRecOn with
  | nil => exact attributed_of_empty rfl rfl []
  | append_singleton events event ih =>
      rw [run_snoc]
      have hroots : ∀ id n, (run events).traceRoots.get? id = some n → ∃ trace : AgentsTrace,
          trace.traceId = id ∧ Mirrors (events ++ [event]) n (.onTraceStart trace) := by
        intro id n h
        rcases ih.roots id n h with ⟨trace, hid, hmirrors⟩
        exact ⟨trace, hid, hmirrors.append _⟩
      have hspans : ∀ id n, (run events).spans.get? id = some n → ∃ span : AgentsSpan,
          span.spanId = id ∧ Mirrors (events ++ [event]) n (.onSpanStart span) := by
        intro id n h
        rcases ih.spans id n h with ⟨span, hid, hmirrors⟩
        exact ⟨span, hid, hmirrors.append _⟩
      rcases event with ⟨current, callback⟩
      cases callback with
      | onTraceStart trace =>
          refine ⟨fun id n h => ?_, hspans⟩
          rcases Dict.get?_set_cases h with hold | ⟨hid, hn⟩
          · exact hroots id n hold
          · exact ⟨trace, hid.symm, events, current, [], rfl, hn.symm⟩
      | onTraceEnd trace =>
          exact ⟨fun id n h => hroots id n ((Dict.get?_erase _ _ _ _).mp h).1, hspans⟩
      | onSpanStart span =>
          refine ⟨hroots, fun id n h => ?_⟩
          rcases Dict.get?_set_cases h with hold | ⟨hid, hn⟩
          · exact hspans id n hold
          · exact ⟨span, hid.symm, events, current, [], rfl, hn.symm⟩
      | onSpanEnd span =>
          dsimp only [handle, onSpanEnd]
          rcases hspan : (run events).spans.get? span.spanId with _ | mirrored
          · exact ⟨hroots, hspans⟩
          · exact ⟨hroots, fun id n h => hspans id n ((Dict.get?_erase _ _ _ _).mp h).1⟩
      | shutdown => exact attributed_of_empty rfl rfl _
      | forceFlush => exact ⟨hroots, hspans⟩

/-- A trace or span that is started for the first time is not held. -/
theorem run_fresh {events : List (OtelContext × Callback)} {event : OtelContext × Callback}
    (h : WellIdentified (events ++ [event])) : (run events).Fresh event.2 := by
  have htraces := h.traces
  have hspans := h.spans
  rw [List.filterMap_append] at htraces hspans
  rcases event with ⟨current, callback⟩
  cases callback with
  | onTraceStart trace =>
      intro hheld
      rcases hroot : (run events).traceRoots.get? trace.traceId with _ | root
      · exact (Dict.get?_eq_none_iff _ _).mp hroot hheld
      · rcases (run_attributed events).roots _ _ hroot with ⟨other, hid, hmirrors⟩
        rcases hmirrors.mem with ⟨current', hmem⟩
        -- The root that is held was started for the same trace before.
        exact (List.nodup_append.mp htraces).2.2 other.traceId
          (List.mem_filterMap.mpr ⟨_, hmem, rfl⟩) trace.traceId List.mem_cons_self hid
  | onSpanStart span =>
      intro hheld
      rcases hspan : (run events).spans.get? span.spanId with _ | mirrored
      · exact (Dict.get?_eq_none_iff _ _).mp hspan hheld
      · rcases (run_attributed events).spans _ _ hspan with ⟨other, hid, hmirrors⟩
        rcases hmirrors.mem with ⟨current', hmem⟩
        exact (List.nodup_append.mp hspans).2.2 other.spanId
          (List.mem_filterMap.mpr ⟨_, hmem, rfl⟩) span.spanId List.mem_cons_self hid
  | onTraceEnd _ => trivial
  | onSpanEnd _ => trivial
  | shutdown => trivial
  | forceFlush => trivial

end Processor

/-- Fewer callbacks are identified as well. -/
theorem WellIdentified.initial {events before : List (OtelContext × Callback)}
    (h : WellIdentified events) (hbefore : before <+: events) : WellIdentified before where
  traces := h.traces.sublist (hbefore.sublist.filterMap _)
  spans := h.spans.sublist (hbefore.sublist.filterMap _)
  parents := fun current span current' parent hspan hparent =>
    h.parents current span current' parent (hbefore.subset hspan) (hbefore.subset hparent)

namespace Processor

/-- The account is kept by every sequence of well identified callbacks. -/
theorem run_balanced {events : List (OtelContext × Callback)} (h : WellIdentified events) :
    Balanced (run events) := by
  induction events using List.reverseRecOn with
  | nil => exact new_balanced
  | append_singleton events event ih =>
      rw [run_snoc]
      exact handle_balanced (ih (h.initial (List.prefix_append _ _))) event (run_fresh h)

/-- The spans ended are distinct, and the spans held are the others. -/
theorem Balanced.held {p : Processor} (h : Balanced p) : p.tracer.spansEnded.Nodup ∧
    (p.spans.values ++ p.traceRoots.values).Perm
      (p.tracer.spansStarted.filter fun n => n ∉ p.tracer.spansEnded) := by
  have hnodup : (p.tracer.spansEnded ++ (p.spans.values ++ p.traceRoots.values)).Nodup := by
    rw [h.accounted.nodup_iff, h.numbered]
    exact List.nodup_range
  rcases List.nodup_append.mp hnodup with ⟨hended, _, hdisjoint⟩
  refine ⟨hended, ?_⟩
  have hnone : p.tracer.spansEnded.filter (fun n => n ∉ p.tracer.spansEnded) = [] :=
    List.filter_eq_nil_iff.mpr fun n hn => by
      simp only [hn, not_true_eq_false, decide_false, Bool.false_eq_true, not_false_eq_true]
  have hall : (p.spans.values ++ p.traceRoots.values).filter
      (fun n => n ∉ p.tracer.spansEnded) = p.spans.values ++ p.traceRoots.values :=
    List.filter_eq_self.mpr fun n hn => decide_eq_true fun hmem => hdisjoint n hmem n hn rfl
  -- Only the spans held are left of both when the spans ended are taken out.
  have hfilter := h.accounted.filter fun n => n ∉ p.tracer.spansEnded
  rwa [List.filter_append, hnone, List.nil_append, hall] at hfilter

/-- What a callback for the start of a span does while the root of its trace is
    held: it starts one span, under a span that mirrors one of the same trace or
    under that root. -/
theorem onSpanStart_parent {events : List (OtelContext × Callback)} {current : OtelContext}
    {span : AgentsSpan} {root : Nat}
    (h : WellIdentified (events ++ [(current, Callback.onSpanStart span)]))
    (hroot : (run events).traceRoots.get? span.traceId = some root) :
    ∃ (n : Nat) (name : String) (context : OtelContext) (attributes : PyDict) (parent : Nat),
      (run (events ++ [(current, Callback.onSpanStart span)])).tracer.ops =
        (run events).tracer.ops ++ [.startSpan n name context attributes] ∧
      context.span = some (.started parent) ∧
      (parent = root ∨ ∃ other : AgentsSpan, other.traceId = span.traceId ∧
        Mirrors events parent (.onSpanStart other)) := by
  rw [run_snoc]
  dsimp only [handle, onSpanStart, parentOf]
  rcases hparent : span.parentId.bind (run events).spans.get? with _ | parent
  · rw [Option.none_or, hroot]
    exact ⟨_, _, _, _, root, rfl, rfl, Or.inl rfl⟩
  · rw [Option.some_or]
    refine ⟨_, _, _, _, parent, rfl, rfl, Or.inr ?_⟩
    rcases Option.bind_eq_some_iff.mp hparent with ⟨id, hid, hheld⟩
    rcases (run_attributed events).spans id parent hheld with ⟨other, hother, hmirrors⟩
    rcases hmirrors.mem with ⟨current', hmem⟩
    -- The parent was started by a callback, so it is of the trace of its child.
    refine ⟨other, (h.parents current span current' other ?_ ?_ ?_).symm, hmirrors⟩
    · exact List.mem_append_right _ (List.mem_singleton.mpr rfl)
    · exact List.mem_append_left _ hmem
    · rw [hid, hother]

end Processor

open Processor

/-- The bridge loses and double-ends no span, and crosses no traces. After any
    callbacks every span was ended at most once, those started and not ended are
    the ones held, and the parent contexts are kept for the roots that are held;
    a shutdown ends all and holds none; and a span that is started while the root
    of its trace is held is started under that root, which mirrors the trace, or
    under a span that mirrors one of the trace. -/
theorem bridge_mirrors {events : List (OtelContext × Callback)} (h : WellIdentified events) :
    (∀ before : List (OtelContext × Callback), before <+: events →
      (run before).tracer.spansEnded.Nodup ∧
      ((run before).spans.values ++ (run before).traceRoots.values).Perm
        ((run before).tracer.spansStarted.filter fun n => n ∉ (run before).tracer.spansEnded) ∧
      (run before).traceParentContexts.keys = (run before).traceRoots.keys) ∧
    (∀ (before : List (OtelContext × Callback)) (current : OtelContext),
      before ++ [(current, Callback.shutdown)] <+: events →
      (∀ n ∈ (run (before ++ [(current, Callback.shutdown)])).tracer.spansStarted,
        n ∈ (run (before ++ [(current, Callback.shutdown)])).tracer.spansEnded) ∧
      (run (before ++ [(current, Callback.shutdown)])).traceRoots = .empty ∧
      (run (before ++ [(current, Callback.shutdown)])).traceParentContexts = .empty ∧
      (run (before ++ [(current, Callback.shutdown)])).spans = .empty) ∧
    (∀ (before : List (OtelContext × Callback)) (current : OtelContext) (span : AgentsSpan)
      (root : Nat), before ++ [(current, Callback.onSpanStart span)] <+: events →
      (run before).traceRoots.get? span.traceId = some root →
      (∃ trace : AgentsTrace, trace.traceId = span.traceId ∧
        Mirrors before root (.onTraceStart trace)) ∧
      ∃ (n : Nat) (name : String) (context : OtelContext) (attributes : PyDict) (parent : Nat),
        (run (before ++ [(current, Callback.onSpanStart span)])).tracer.ops =
          (run before).tracer.ops ++ [.startSpan n name context attributes] ∧
        context.span = some (.started parent) ∧
        (parent = root ∨ ∃ other : AgentsSpan, other.traceId = span.traceId ∧
          Mirrors before parent (.onSpanStart other))) := by
  refine ⟨fun before hbefore => ?_, fun before current hbefore => ?_,
    fun before current span root hbefore hroot => ?_⟩
  · have hbalanced := run_balanced (h.initial hbefore)
    exact ⟨hbalanced.held.1, hbalanced.held.2, hbalanced.contexts⟩
  · have hbalanced := run_balanced (h.initial hbefore)
    rw [run_snoc] at hbalanced ⊢
    refine ⟨fun n hn => ?_, rfl, rfl, rfl⟩
    -- Nothing is held after a shutdown, so all that was started is ended.
    have hended := hbalanced.accounted.symm.subset hn
    exact (List.mem_append.mp hended).resolve_right List.not_mem_nil
  · exact ⟨(run_attributed before).roots _ _ hroot, onSpanStart_parent (h.initial hbefore) hroot⟩

/-- Callbacks out of order: a child whose parent has ended, a span that outlives
    its trace, an end without a start. -/
def tangledCallbacks (current : OtelContext) : List (OtelContext × Callback) :=
  let trace : AgentsTrace := { traceId := "trace", name := none, content := [] }
  let span : String → Option String → AgentsSpan := fun id parent =>
    { spanId := id
      traceId := "trace"
      parentId := parent
      spanData := { type := some "agent", name := none, model := none, content := [] }
      error := none
      content := [] }
  [(current, .onTraceStart trace), (current, .onSpanStart (span "a" none)),
    (current, .onSpanStart (span "b" (some "a"))), (current, .onSpanEnd (span "a" none)),
    (current, .onSpanStart (span "c" (some "a"))), (current, .onTraceEnd trace),
    (current, .onSpanEnd (span "b" (some "a"))), (current, .onSpanEnd (span "d" none)),
    (current, .shutdown)]

/-- The context of an application span. -/
def requestContext : OtelContext :=
  { span := some (.outside "http.request"), entries := [] }

theorem bridge_mirrors_sample :
    (run (tangledCallbacks requestContext)).tracer.spansEnded = [1, 0, 2, 3] ∧
      (run (tangledCallbacks requestContext)).tracer.spansEnded.Nodup ∧
      ∀ n ∈ (run (tangledCallbacks requestContext)).tracer.spansStarted,
        n ∈ (run (tangledCallbacks requestContext)).tracer.spansEnded := by
  have hidentified : WellIdentified (tangledCallbacks requestContext) := by
    refine ⟨by decide, by decide, fun current span current' parent hspan hparent _ => ?_⟩
    simp only [tangledCallbacks, List.mem_cons, Prod.mk.injEq, Callback.onSpanStart.injEq,
      reduceCtorEq, and_false, false_or, or_false, List.not_mem_nil] at hspan hparent
    -- All of the spans are of the one trace.
    rcases hspan with ⟨_, rfl⟩ | ⟨_, rfl⟩ | ⟨_, rfl⟩ <;>
      rcases hparent with ⟨_, rfl⟩ | ⟨_, rfl⟩ | ⟨_, rfl⟩ <;> rfl
  have hlast : (tangledCallbacks requestContext).take 8 ++ [(requestContext, .shutdown)] =
      tangledCallbacks requestContext := rfl
  rcases bridge_mirrors hidentified with ⟨hheld, hshutdown, _⟩
  have hend := hshutdown ((tangledCallbacks requestContext).take 8) requestContext
    ⟨[], (List.append_nil _).trans hlast⟩
  rw [hlast] at hend
  exact ⟨rfl, (hheld _ (List.prefix_refl _)).1, hend.1⟩

end Asante
