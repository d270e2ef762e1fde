import ContentApi.Condition.Parser
import ContentApi.Proofs.Path

/-!
# The grammar of conditions

The notation of a `where` clause as a grammar without any order among its alternatives: each
rule says of which parts a text consists and which value it stands for.  Nothing in a rule
depends on what stands in front of a text or behind it.

`Mixture` is not part of the notation.  It describes what a clause would look like that mixes
the two connectives.
-/

namespace ContentApi.Condition

open ContentApi.Language

/-- What simple conditions are joined with. -/
inductive Connective where
  | and
  | or
deriving DecidableEq, Repr

/-- The keyword of a connective. -/
def Connective.word : Connective → List Char
  | .and => ['a', 'n', 'd']
  | .or => ['o', 'r']

/-- The condition that some parts joined with a connective make up. -/
def Connective.join : Connective → List Condition → Condition
  | .and => .all
  | .or => .any

namespace Grammar

/--
The text between two quotes and its value.  A backslash stands only in front of a quote or
of another backslash, and the quote around the text only behind a backslash.
-/
inductive QuotedText (quote : Char) : List Char → List Char → Prop where
  | nil : QuotedText quote [] []
  | plain {character : Char} {text value : List Char} (notQuote : character ≠ quote)
      (notBackslash : character ≠ '\\') (rest : QuotedText quote text value) :
      QuotedText quote (character :: text) (character :: value)
  | escaped {character : Char} {text value : List Char}
      (escapable : character = '\\' ∨ character = '\x27' ∨ character = '\x22')
      (rest : QuotedText quote text value) :
      QuotedText quote ('\\' :: character :: text) (character :: value)

/-- A text between quotes of either kind, or a run of bare characters. -/
inductive Value : List Char → String → Prop where
  | quoted {quote : Char} {text value : List Char}
      (isQuote : quote = '\x27' ∨ quote = '\x22')
      (inside : QuotedText quote text value) :
      Value (quote :: (text ++ [quote])) (String.ofList value)
  | bare {text : List Char} (nonempty : text ≠ [])
      (all : ∀ character ∈ text, isBareCharacter character = true) :
      Value text (String.ofList text)

/-- Two values with a comma and any blanks between them. -/
inductive Range : List Char → String × String → Prop where
  | intro {first second : List Char} {low high : String} (isLow : Value first low)
      (isHigh : AfterComma Value second high) : Range (first ++ second) (low, high)

/-- A path and a keyword behind it, with blanks around the keyword, in front at least one. -/
inductive Operator (word : List Char) : List Char → String → Prop where
  | intro {path before key after : List Char} {property : String}
      (spells : Path.Spells path property) (someBefore : SomeBlanks before)
      (isWord : Keyword word key) (blanksAfter : Blanks after) :
      Operator word (path ++ (before ++ (key ++ after))) property

/-- A test of one property. -/
inductive Test : List Char → PropertyTest → Prop where
  | present {key blanks text : List Char} {property : String}
      (isWord : Keyword ['e', 'x', 'i', 's', 't', 's'] key) (allBlank : Blanks blanks)
      (inside : Parenthesized Path.Spells text property) :
      Test (key ++ (blanks ++ text)) (.present property)
  | between {front text : List Char} {property low high : String}
      (operator : Operator ['b', 'e', 't', 'w', 'e', 'e', 'n'] front property)
      (inside : Parenthesized Range text (low, high)) :
      Test (front ++ text) (.between property low high)
  | oneOf {front text : List Char} {property : String} {values : List String}
      (operator : Operator ['i', 'n'] front property)
      (inside : Parenthesized (CommaList Value) text values) :
      Test (front ++ text) (.oneOf property values)
  | like {front text : List Char} {property pattern : String}
      (operator : Operator ['m', 'a', 't', 'c', 'h', 'e', 's'] front property)
      (inside : Parenthesized Value text pattern) :
      Test (front ++ text) (.like property pattern)
  | compare {path before after text : List Char} {property value : String}
      {comparator : Comparator} (spells : Path.Spells path property)
      (blanksBefore : Blanks before) (blanksAfter : Blanks after)
      (inside : Value text value) :
      Test (path ++ (before ++ (comparator.sign.toList ++ (after ++ text))))
        (.compare property comparator value)

/-- A test, or the keyword `NOT` and a test behind blanks. -/
inductive Simple : List Char → Condition → Prop where
  | test {text : List Char} {leaf : PropertyTest} (inside : Test text leaf) :
      Simple text (.test leaf)
  | negation {key blanks text : List Char} {leaf : PropertyTest}
      (isWord : Keyword ['n', 'o', 't'] key) (someBlanks : SomeBlanks blanks)
      (inside : Test text leaf) :
      Simple (key ++ (blanks ++ text)) (.negation (.test leaf))

/-- A connective between blanks, and a simple condition behind it. -/
inductive Linked (connective : Connective) : List Char → Condition → Prop where
  | intro {before key after text : List Char} {condition : Condition}
      (someBefore : SomeBlanks before) (isWord : Keyword connective.word key)
      (someAfter : SomeBlanks after) (inside : Simple text condition) :
      Linked connective (before ++ (key ++ (after ++ text))) condition

/-- A simple condition, or several of them, all joined with the same connective. -/
inductive Predicate : List Char → Condition → Prop where
  | simple {text : List Char} {condition : Condition} (inside : Simple text condition) :
      Predicate text condition
  | joined {text rest : List Char} {connective : Connective} {condition : Condition}
      {others : List Condition} (head : Simple text condition)
      (tail : Star (Linked connective) rest others) (severalParts : others ≠ []) :
      Predicate (text ++ rest) (connective.join (condition :: others))

/-- A predicate between parentheses, with blanks anywhere around it. -/
inductive Clause : List Char → Condition → Prop where
  | intro {before text after : List Char} {condition : Condition}
      (blanksBefore : Blanks before) (inside : Parenthesized Predicate text condition)
      (blanksAfter : Blanks after) : Clause (before ++ (text ++ after)) condition

/-- A simple condition that is joined to what stands in front of it with some connective. -/
def LinkedAny (text : List Char) (part : Connective × Condition) : Prop :=
  Linked part.1 text part.2

/-- Simple conditions in a row that are joined with both connectives. -/
inductive Mixture : List Char → List (Connective × Condition) → Prop where
  | intro {text rest : List Char} {condition : Condition}
      {others : List (Connective × Condition)} (head : Simple text condition)
      (tail : Star LinkedAny rest others)
      (hasAnd : ∃ part ∈ others, part.1 = .and) (hasOr : ∃ part ∈ others, part.1 = .or) :
      Mixture (text ++ rest) others

/-- A clause that mixes the two connectives. -/
inductive MixedClause : List Char → Prop where
  | intro {before text after : List Char} {parts : List (Connective × Condition)}
      (blanksBefore : Blanks before) (inside : Parenthesized Mixture text parts)
      (blanksAfter : Blanks after) : MixedClause (before ++ (text ++ after))

end Grammar

end ContentApi.Condition
