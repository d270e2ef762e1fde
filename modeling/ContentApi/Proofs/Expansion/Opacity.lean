import ContentApi.Content.Demo
import ContentApi.Proofs.Expansion.Bodies
import ContentApi.Proofs.Expansion.Tracing

/-!
# Failures of branches are opaque

A branch that does not exist, that is hidden, that breaks or that is empty leaves the same
gap in a body.  So two pure executors that differ only in how they keep silent lead to the
same body and ask for the same executions (`rendering_eq_of_silent`).
-/

namespace ContentApi

/-! ## Pure programs -/

/-- Relations between values, as relations between programs without effects. -/
def pureRelation : ProgramRelation Id Id where
  Holds related value result := related value result
  pure alike := alike
  bind alike continues := continues _ _ alike

/-- Programs that add the same calls to a trace and give related values. -/
def sameCalls : ProgramRelation (StateT Trace Id) (StateT Trace Id) where
  Holds related program other :=
    ∀ trace, (program trace).2 = (other trace).2 ∧ related (program trace).1 (other trace).1
  pure := by
    intro α β related value result alike trace
    exact ⟨rfl, alike⟩
  bind := by
    intro α β γ δ related later program other next after holds continues trace
    obtain ⟨sameTrace, alike⟩ := holds trace
    have continued := continues _ _ alike (other trace).2
    show (next (program trace).1 (program trace).2).2 = _ ∧
      later (next (program trace).1 (program trace).2).1 _
    rw [sameTrace]
    exact continued

/-! ## Bodies and calls -/

/-- A reply without an answer: any error at all, or nothing. -/
def Reply.IsSilent (reply : Reply) : Prop :=
  reply.answer? = none

namespace Expander

/-- The body of what an answer is expanded to, if there is an answer. -/
def rendering (expander : Expander Id) (maxDepth : Nat) (collection : Option String)
    (context : Context) (answer : Option Answer) : Option (Except Json.WriteError Json) :=
  (expander.expand maxDepth collection context answer).run.map Node.render

/-- The executions that are asked for when an answer is expanded. -/
def calls (expander : Expander Id) (maxDepth : Nat) (collection : Option String)
    (context : Context) (answer : Option Answer) : Trace :=
  (expander.traced.expand maxDepth collection context answer []).2

/-- Nodes that are alike but for their omissions have the same body, if there is one. -/
theorem map_render_eq {node other : Option Node}
    (alike : Option.Rel Likeness.body.node node other) :
    node.map Node.render = other.map Node.render := by
  cases alike with
  | none => rfl
  | some sameBody => exact congrArg some (render_eq_of_alike sameBody)

/--
Failures of branches are opaque.  Let two pure executors give the same reply to each call,
or no answer at all, whatever stands in place of it.  Then every answer is expanded and
rendered to the same body, or fails to be rendered with the same error, and the same
executions are asked for in the same order.
-/
theorem rendering_eq_of_silent (locator : Locator) (api : Api) (execute other : Executor Id)
    (alike : ∀ resource context,
      execute resource context = other resource context ∨
        Reply.IsSilent (execute resource context) ∧ Reply.IsSilent (other resource context))
    (maxDepth : Nat) (collection : Option String) (context : Context)
    (answer : Option Answer) :
    rendering ⟨locator, api, execute⟩ maxDepth collection context answer =
        rendering ⟨locator, api, other⟩ maxDepth collection context answer ∧
      calls ⟨locator, api, execute⟩ maxDepth collection context answer =
        calls ⟨locator, api, other⟩ maxDepth collection context answer := by
  have sameAnswers : ∀ resource context,
      Reply.answer? (execute resource context) = Reply.answer? (other resource context) := by
    intro resource context
    rcases alike resource context with same | ⟨silent, otherSilent⟩
    · rw [same]
    · exact silent.trans otherSilent.symm
  have bodies : Corresponds pureRelation Likeness.body
      ⟨locator, api, execute⟩ ⟨locator, api, other⟩ :=
    ⟨rfl, rfl, sameAnswers⟩
  have traces : Corresponds sameCalls Likeness.body
      (traced ⟨locator, api, execute⟩) (traced ⟨locator, api, other⟩) :=
    ⟨rfl, rfl, fun resource context trace => ⟨rfl, sameAnswers resource context⟩⟩
  constructor
  · exact map_render_eq (bodies.expand maxDepth collection context answer)
  · exact (traces.expand maxDepth collection context answer []).1

/-- Executes to a site for its id, and keeps silent on everything else in its own way. -/
def onlySite (silence : Resource → Reply) : Expander Id where
  locator := (Demo.register {} Demo.api).locator
  api := Demo.api
  execute resource context :=
    if context.entityId = some "site" then
      .ok (some (.entity (.site ⟨"site", "Legal", .hidden, some "bob"⟩)))
    else silence resource

/-- Everything but the site is empty. -/
def emptyElsewhere : Expander Id :=
  onlySite fun _ => .ok none

/-- Everything but the site is hidden. -/
def hiddenElsewhere : Expander Id :=
  onlySite fun resource => .error (.permissionDenied resource.key)

/-- A list of the documents of a site. -/
def documentList : Answer :=
  .page ⟨{}, false, some 1, none⟩
    [.entity (.document ⟨some "plan", "plan.txt", "text/plain", 1024, some "dave", some "site"⟩)]

/-- Asks for the members and for the source of a list. -/
def listingContext : Context where
  entityId := some "gone"
  relations := .ofList [("members", .everything)]
  includeSource := true

/--
A document is shown with its site, whether the source of the list, the owner, the manager
of the site and the members are hidden or just not there; all five are looked for.
-/
theorem rendering_eq_of_silent_document :
    (∀ resource context,
      emptyElsewhere.execute resource context = hiddenElsewhere.execute resource context ∨
        Reply.IsSilent (emptyElsewhere.execute resource context) ∧
          Reply.IsSilent (hiddenElsewhere.execute resource context)) ∧
      (calls emptyElsewhere 4 (some "sites") listingContext (some documentList)).length = 5 ∧
      rendering emptyElsewhere 4 (some "sites") listingContext (some documentList) =
        rendering hiddenElsewhere 4 (some "sites") listingContext (some documentList) ∧
      calls emptyElsewhere 4 (some "sites") listingContext (some documentList) =
        calls hiddenElsewhere 4 (some "sites") listingContext (some documentList) := by
  have alike : ∀ resource context,
      emptyElsewhere.execute resource context = hiddenElsewhere.execute resource context ∨
        Reply.IsSilent (emptyElsewhere.execute resource context) ∧
          Reply.IsSilent (hiddenElsewhere.execute resource context) := by
    intro resource context
    by_cases isSite : context.entityId = some "site"
    · simp [emptyElsewhere, hiddenElsewhere, onlySite, isSite]
    · simp [emptyElsewhere, hiddenElsewhere, onlySite, isSite, Reply.IsSilent, Reply.answer?]
  refine ⟨alike, by decide +kernel, ?_⟩
  exact rendering_eq_of_silent emptyElsewhere.locator emptyElsewhere.api
    emptyElsewhere.execute hiddenElsewhere.execute alike 4 (some "sites") listingContext
    (some documentList)

end Expander

end ContentApi
