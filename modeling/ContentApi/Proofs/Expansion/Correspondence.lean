import ContentApi.Expansion.Walk
import Mathlib.Data.List.Forall2

/-!
# Expansions that correspond

Two expansions of one answer make the same decisions as long as their executions give the
same answers.  What is asked of two monads is only that some relation between their programs
is kept by sequencing (`ProgramRelation`), and what is asked of replies and nodes is only
what the walk does with them (`Likeness`).  Then corresponding expanders expand every answer
to corresponding nodes (`Corresponds.expandWithin`).

The theorem is used for an expansion and the same expansion with its executions noted, and
for expansions over different stores.
-/

namespace ContentApi

open Expander

universe u v

/-! ## Replies -/

/-- The answer in a reply, if there is one. -/
def Reply.answer? : Reply → Option Answer
  | .ok answer => answer
  | .error _ => none

/-- What a branch gives if there is no answer in the reply. -/
def Reply.silent : Reply → Outcome
  | .ok _ => .ok none
  | .error error => .error (.ofError error)

namespace Expander

variable {m : Type → Type u} [Monad m]

/-- What becomes of a reply: an answer is expanded with `deeper`. -/
def settle (deeper : Context → Answer → m Node) (inner : Context) (reply : Reply) :
    m Outcome :=
  match reply.answer? with
  | none => return reply.silent
  | some answer => do
      let node ← deeper inner answer
      return .ok (some node)

/-- A branch is executed once, and then its reply is settled. -/
theorem runBranch_eq
    (expander : Expander m) (deeper : Context → Answer → m Node) (context : Context)
    (key : Option String) (resource : Resource) (entityId : Option String) :
    expander.runBranch deeper context key resource entityId =
      expander.execute resource
          (context.branch (key.bind context.relations.get?) entityId) >>=
        settle deeper (context.branch (key.bind context.relations.get?) entityId) := by
  show expander.execute resource _ >>= _ = _
  congr 1
  funext reply
  cases reply with
  | error error => rfl
  | ok answer =>
      cases answer with
      | none => rfl
      | some answer => rfl

end Expander

/-! ## Relations that the walk keeps -/

/-- Behind a program that is known from a state, the next one starts from its final state. -/
theorem bind_of_ran {σ α β : Type} {first : StateM σ α} {next : α → StateM σ β}
    {state middle : σ} {value : α} (ran : first state = (value, middle)) :
    (first >>= next) state = next value middle := by
  show next (first state).1 (first state).2 = _
  rw [ran]

/-- A relation between the programs of two monads that is kept by sequencing. -/
structure ProgramRelation (m : Type → Type u) (n : Type → Type v) [Monad m] [Monad n] where
  Holds : ∀ {α β : Type}, (α → β → Prop) → m α → n β → Prop
  pure : ∀ {α β : Type} {related : α → β → Prop} {value : α} {result : β},
    related value result → Holds related (Pure.pure value) (Pure.pure result)
  bind : ∀ {α β γ δ : Type} {related : α → β → Prop} {later : γ → δ → Prop}
    {first : m α} {second : n β} {next : α → m γ} {after : β → n δ},
    Holds related first second →
    (∀ value result, related value result → Holds later (next value) (after result)) →
    Holds later (first >>= next) (second >>= after)

/-- Outcomes of one name that are related. -/
def SameName (related : Outcome → Outcome → Prop) (one other : String × Outcome) : Prop :=
  one.1 = other.1 ∧ related one.2 other.2

/-- Relations between replies, outcomes and nodes that the walk keeps. -/
structure Likeness where
  reply : Reply → Reply → Prop
  outcome : Outcome → Outcome → Prop
  node : Node → Node → Prop
  /-- Replies that are alike hold the same answer. -/
  answered : ∀ {first second : Reply}, reply first second →
    first.answer? = second.answer?
  silent : ∀ {first second : Reply}, reply first second →
    first.answer? = none → outcome first.silent second.silent
  shown : ∀ {first second : Node}, node first second →
    outcome (.ok (some first)) (.ok (some second))
  sourceRoot : ∀ {first second : Outcome}, outcome first second →
    sourceRoot? first = sourceRoot? second
  same : ∀ shared : Node, node shared shared
  page : ∀ (info : PageInfo) {items others : List Node},
    List.Forall₂ node items others → node (.page info items) (.page info others)
  entity : ∀ (root : Entity) (projection : Projection)
    {embedded related others counterparts : List (String × Outcome)},
    List.Forall₂ (SameName outcome) embedded others →
    List.Forall₂ (SameName outcome) related counterparts →
    node
      (.entity root projection (Branch.inlined (Branch.resolved embedded))
        (Branch.resolved related) false
        (Branch.omissions embedded ++ Branch.omissions related))
      (.entity root projection (Branch.inlined (Branch.resolved others))
        (Branch.resolved counterparts) false
        (Branch.omissions others ++ Branch.omissions counterparts))

/-- Being the same, as a likeness. -/
def Likeness.exact : Likeness where
  reply := Eq
  outcome := Eq
  node := Eq
  answered := by
    intro first second equal
    rw [equal]
  silent := by
    intro first second equal _
    rw [equal]
  shown := by
    intro first second equal
    rw [equal]
  sourceRoot := by
    intro first second equal
    rw [equal]
  same _ := rfl
  page := by
    intro info items others equal
    rw [List.forall₂_eq_eq_eq] at equal
    rw [equal]
  entity := by
    intro root projection embedded related others counterparts sameEmbedded sameRelated
    have pairs : SameName Eq = Eq := by
      funext one other
      exact propext Prod.ext_iff.symm
    rw [pairs, List.forall₂_eq_eq_eq] at sameEmbedded sameRelated
    rw [sameEmbedded, sameRelated]

variable {m : Type → Type u} {n : Type → Type v} [Monad m] [Monad n]

/-- Two expanders with the same resources whose executions give replies that are alike. -/
structure Corresponds (relation : ProgramRelation m n) (likeness : Likeness)
    (first : Expander m) (second : Expander n) : Prop where
  locator : first.locator = second.locator
  api : first.api = second.api
  execute : ∀ resource context,
    relation.Holds likeness.reply (first.execute resource context)
      (second.execute resource context)

namespace Corresponds

variable {relation : ProgramRelation m n} {likeness : Likeness}
variable {first : Expander m} {second : Expander n}
variable {deeper : Context → Answer → m Node} {below : Context → Answer → n Node}

theorem collection? (same : Corresponds relation likeness first second) (name : String) :
    first.collection? name = second.collection? name := by
  unfold Expander.collection?
  rw [same.locator, same.api]

theorem embedBranches
    (same : Corresponds relation likeness first second) (entity : Entity) :
    first.embedBranches entity = second.embedBranches entity := by
  unfold Expander.embedBranches
  simp only [same.collection?]

theorem relationBranches
    (same : Corresponds relation likeness first second)
    (collection : Option String) (context : Context) (entity : Entity) :
    first.relationBranches collection context entity =
      second.relationBranches collection context entity := by
  unfold Expander.relationBranches
  rw [same.locator, same.api]

theorem runBranch
    (same : Corresponds relation likeness first second)
    (expands : ∀ inner answer,
      relation.Holds likeness.node (deeper inner answer) (below inner answer))
    (context : Context) (key : Option String) (resource : Resource)
    (entityId : Option String) :
    relation.Holds likeness.outcome
      (first.runBranch deeper context key resource entityId)
      (second.runBranch below context key resource entityId) := by
  rw [runBranch_eq, runBranch_eq]
  apply relation.bind (same.execute resource _)
  intro reply other alike
  unfold settle
  rw [← likeness.answered alike]
  cases found : reply.answer? with
  | none => exact relation.pure (likeness.silent alike found)
  | some answer =>
      apply relation.bind (expands _ answer)
      intro node counterpart nodesAlike
      exact relation.pure (likeness.shown nodesAlike)

theorem runBranches
    (same : Corresponds relation likeness first second)
    (expands : ∀ inner answer,
      relation.Holds likeness.node (deeper inner answer) (below inner answer))
    (context : Context) (branches : List Branch) :
    relation.Holds (List.Forall₂ (SameName likeness.outcome))
      (first.runBranches deeper context branches)
      (second.runBranches below context branches) := by
  induction branches with
  | nil => exact relation.pure .nil
  | cons branch rest ih =>
      apply relation.bind (same.runBranch expands context _ _ _)
      intro outcome other alike
      apply relation.bind ih
      intro outcomes others restAlike
      exact relation.pure (.cons ⟨rfl, alike⟩ restAlike)

theorem expandEntity
    (same : Corresponds relation likeness first second)
    (expands : ∀ inner answer,
      relation.Holds likeness.node (deeper inner answer) (below inner answer))
    (collection : Option String) (context : Context) (entity : Entity) :
    relation.Holds likeness.node
      (first.expandEntity deeper collection context entity)
      (second.expandEntity below collection context entity) := by
  unfold Expander.expandEntity
  rw [same.embedBranches, same.relationBranches]
  apply relation.bind (same.runBranches expands context _)
  intro embedded others embeddedAlike
  apply relation.bind (same.runBranches expands context _)
  intro related counterparts relatedAlike
  exact relation.pure (likeness.entity entity _ embeddedAlike relatedAlike)

theorem pageSource
    (same : Corresponds relation likeness first second)
    (expands : ∀ inner answer,
      relation.Holds likeness.node (deeper inner answer) (below inner answer))
    (collection : Option String) (context : Context) (info : PageInfo) :
    relation.Holds Eq
      (first.pageSource deeper collection context info)
      (second.pageSource below collection context info) := by
  unfold Expander.pageSource
  have sameCollection : first.collection? = second.collection? := by
    funext name
    exact same.collection? name
  rw [sameCollection]
  split
  · split
    · exact relation.pure rfl
    · split
      · exact relation.pure rfl
      · apply relation.bind (same.runBranch expands context none _ _)
        intro outcome other alike
        exact relation.pure (likeness.sourceRoot alike)
  · exact relation.pure rfl

mutual

/-- Corresponding expanders walk over an answer alike. -/
theorem walk
    (same : Corresponds relation likeness first second)
    (expands : ∀ inner answer,
      relation.Holds likeness.node (deeper inner answer) (below inner answer))
    (follow : Bool) (collection : Option String) (context : Context) :
    ∀ answer,
      relation.Holds likeness.node
        (first.walk deeper follow collection context answer)
        (second.walk below follow collection context answer)
  | .scalar value => by
      rw [Expander.walk, Expander.walk]
      exact relation.pure (likeness.same _)
  | .sequence items => by
      rw [Expander.walk, Expander.walk]
      exact relation.pure (likeness.same _)
  | .page info items => by
      rw [Expander.walk, Expander.walk]
      apply relation.bind (same.pageSource expands collection context info)
      rintro source _ rfl
      apply relation.bind (walkItems same expands follow collection context items)
      intro nodes others alike
      exact relation.pure (likeness.page _ alike)
  | .entity root => by
      rw [Expander.walk, Expander.walk]
      cases follow with
      | true => exact same.expandEntity expands collection context root
      | false => exact relation.pure (likeness.same _)

theorem walkItems
    (same : Corresponds relation likeness first second)
    (expands : ∀ inner answer,
      relation.Holds likeness.node (deeper inner answer) (below inner answer))
    (follow : Bool) (collection : Option String) (context : Context) :
    ∀ items,
      relation.Holds (List.Forall₂ likeness.node)
        (first.walkItems deeper follow collection context items)
        (second.walkItems below follow collection context items)
  | [] => by
      rw [Expander.walkItems, Expander.walkItems]
      exact relation.pure .nil
  | item :: rest => by
      rw [Expander.walkItems, Expander.walkItems]
      apply relation.bind (walk same expands follow collection context item)
      intro node other alike
      apply relation.bind (walkItems same expands follow collection context rest)
      intro nodes others restAlike
      exact relation.pure (.cons alike restAlike)

end

/-- Corresponding expanders give nodes that are alike, whatever the number of levels. -/
theorem expandWithin
    (same : Corresponds relation likeness first second) (levels : Nat)
    (collection : Option String) (context : Context) (answer : Answer) :
    relation.Holds likeness.node
      (first.expandWithin levels collection context answer)
      (second.expandWithin levels collection context answer) := by
  -- The walk only passes on what its branches give, so the levels below it are arbitrary.
  induction levels generalizing collection context answer with
  | zero =>
      unfold Expander.expandWithin
      apply same.walk
      intro inner bare
      exact relation.pure (likeness.same _)
  | succ levels ih =>
      rw [Expander.expandWithin, Expander.expandWithin]
      apply same.walk
      intro inner nested
      exact ih none inner nested

/-- Corresponding expanders give nodes that are alike, or both give none. -/
theorem expand [LawfulMonad m] [LawfulMonad n]
    (same : Corresponds relation likeness first second) (maxDepth : Nat)
    (collection : Option String) (context : Context) (answer : Option Answer) :
    relation.Holds (Option.Rel likeness.node)
      (first.expand maxDepth collection context answer)
      (second.expand maxDepth collection context answer) := by
  cases answer with
  | none => exact relation.pure .none
  | some answer =>
      simp only [Expander.expand, map_eq_pure_bind]
      apply relation.bind (same.expandWithin maxDepth collection context answer)
      intro node other alike
      exact relation.pure (.some alike)

end Corresponds

end ContentApi
