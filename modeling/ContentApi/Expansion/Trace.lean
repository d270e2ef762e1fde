import ContentApi.Expansion.Branch

/-!
# Traces

A trace lists the executions that an expansion asks for, with the context that each one
received, in the order in which they are made.
-/

namespace ContentApi

universe u

/-- One execution that was asked for. -/
structure Call where
  resource : Resource
  context : Context

/-- The executions that were asked for so far, the first one first. -/
abbrev Trace := List Call

/-- Notes every execution in the trace before it is made. -/
def Executor.traced {m : Type → Type u} [Monad m] [MonadStateOf Trace m]
    (execute : Executor m) : Executor m := fun resource context => do
  modifyThe Trace (· ++ [⟨resource, context⟩])
  execute resource context

end ContentApi
