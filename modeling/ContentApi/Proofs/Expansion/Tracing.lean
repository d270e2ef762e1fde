import ContentApi.Expansion.Trace
import ContentApi.Proofs.Expansion.Correspondence

/-!
# Noting executions

An expander can be run with every execution noted in a trace.  Over an executor with a
state of its own this changes nothing else: the node and the final state are those of the
plain run, and the trace only grows, by calls that depend on the state but not on what was
noted before (`expandWithin_traced`).
-/

namespace ContentApi

universe u

namespace Expander

/-- An expander that notes its executions. -/
def traced {m : Type → Type u} [Monad m] (expander : Expander m) :
    Expander (StateT Trace m) where
  locator := expander.locator
  api := expander.api
  execute :=
    Executor.traced fun resource context =>
      StateT.lift (expander.execute resource context)

end Expander

/-! ## Programs with a trace -/

variable {σ α β : Type}

/-- Behind a program whose executions are known, the next one goes on with its trace. -/
theorem bind_of_noted {first : StateT Trace (StateM σ) α}
    {next : α → StateT Trace (StateM σ) β} {trace longer : Trace} {state middle : σ}
    {value : α} (noted : first trace state = ((value, longer), middle)) :
    (first >>= next) trace state = next value longer middle := by
  show next (first trace state).1.1 (first trace state).1.2 (first trace state).2 = _
  rw [noted]

/--
A program and the same program with its executions noted: from every state they give
related results and the same final state, and some calls are added to the trace.
-/
def Traces (related : α → β → Prop) (program : StateM σ α)
    (noted : StateT Trace (StateM σ) β) : Prop :=
  ∀ state, ∃ value result calls final,
    program state = (value, final) ∧ related value result ∧
      ∀ trace, noted trace state = ((result, trace ++ calls), final)

/-- Noting is kept by sequencing, where the calls are added one after another. -/
def Traces.relation (σ : Type) :
    ProgramRelation (StateM σ) (StateT Trace (StateM σ)) where
  Holds := Traces
  pure := by
    intro α β related value result alike state
    refine ⟨value, result, [], state, rfl, alike, ?_⟩
    intro trace
    rw [List.append_nil]
    rfl
  bind := by
    intro α β γ δ related later first second next after holds continues state
    rcases holds state with ⟨value, result, calls, middle, ran, alike, noted⟩
    obtain ⟨output, other, more, final, ranNext, outputsAlike, notedNext⟩ :=
      continues value result alike middle
    refine ⟨output, other, calls ++ more, final, ?_, outputsAlike, ?_⟩
    · rw [bind_of_ran ran, ranNext]
    · intro trace
      rw [bind_of_noted (noted trace), notedNext, List.append_assoc]

namespace Expander

variable (expander : Expander (StateM σ))

/-- One execution adds one call to the trace. -/
theorem execute_traced (resource : Resource) (context : Context) (trace : Trace)
    (state : σ) :
    expander.traced.execute resource context trace state =
      (((expander.execute resource context state).1, trace ++ [⟨resource, context⟩]),
        (expander.execute resource context state).2) :=
  rfl

theorem corresponds_traced :
    Corresponds (Traces.relation σ) Likeness.exact expander expander.traced where
  locator := rfl
  api := rfl
  execute := by
    intro resource context state
    refine ⟨_, _, [⟨resource, context⟩], _, rfl, rfl, ?_⟩
    intro trace
    exact expander.execute_traced resource context trace state

/-- Noting the executions changes neither the node nor the state, and adds to the trace. -/
theorem expandWithin_traced (levels : Nat) (collection : Option String)
    (context : Context) (answer : Answer) (state : σ) :
    ∃ node calls final,
      expander.expandWithin levels collection context answer state = (node, final) ∧
      ∀ trace,
        expander.traced.expandWithin levels collection context answer trace state =
          ((node, trace ++ calls), final) := by
  obtain ⟨node, noted, calls, final, ran, same, added⟩ :=
    expander.corresponds_traced.expandWithin levels collection context answer state
  cases same
  exact ⟨node, calls, final, ran, added⟩

end Expander

end ContentApi
