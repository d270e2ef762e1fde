import ContentApi.Dictionary

/-!
# Conditions

A `where` clause states a condition on the properties of an entity: a single test, a
negated test, or several of these of which all or any have to hold.
-/

namespace ContentApi

/-- How a property is compared with a value. -/
inductive Comparator where
  | equal
  | less
  | greater
  | lessOrEqual
  | greaterOrEqual
deriving DecidableEq, Repr

/-- The sign of a comparator. -/
def Comparator.sign : Comparator → String
  | .equal => "="
  | .less => "<"
  | .greater => ">"
  | .lessOrEqual => "<="
  | .greaterOrEqual => ">="

/-- A test of one property. -/
inductive PropertyTest where
  | compare (property : String) (comparator : Comparator) (value : String)
  | present (property : String)
  | between (property low high : String)
  | oneOf (property : String) (values : List String)
  | like (property pattern : String)
deriving DecidableEq, Repr

/-- The property that is tested. -/
def PropertyTest.property : PropertyTest → String
  | .compare property _ _ => property
  | .present property => property
  | .between property _ _ => property
  | .oneOf property _ => property
  | .like property _ => property

/-- A condition on an entity. -/
inductive Condition where
  | test (leaf : PropertyTest)
  | negation (inner : Condition)
  | all (parts : List Condition)
  | any (parts : List Condition)
deriving Repr

namespace Condition

mutual

/-- Whether two conditions are the same tree. -/
def same : Condition → Condition → Bool
  | .test left, .test right => decide (left = right)
  | .negation left, .negation right => same left right
  | .all left, .all right => sameParts left right
  | .any left, .any right => sameParts left right
  | _, _ => false

/-- Whether two lists hold the same trees in the same order. -/
def sameParts : List Condition → List Condition → Bool
  | [], [] => true
  | left :: lefts, right :: rights => same left right && sameParts lefts rights
  | _, _ => false

end

mutual

/-- The properties that a condition tests, in the order of the clause. -/
def testedProperties : Condition → List String
  | .test leaf => [leaf.property]
  | .negation inner => testedProperties inner
  | .all parts => testedByParts parts
  | .any parts => testedByParts parts

/-- The properties that some conditions test. -/
def testedByParts : List Condition → List String
  | [] => []
  | part :: rest => testedProperties part ++ testedByParts rest

end

/-- The set of properties that a condition tests. -/
def properties (condition : Condition) : NameSet :=
  .ofList condition.testedProperties

end Condition

end ContentApi
