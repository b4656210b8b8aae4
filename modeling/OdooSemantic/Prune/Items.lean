import Mathlib.Data.List.Basic

/-!
# Stale items

What a run did not write again: children of a module, and relationships from them.
-/

set_option autoImplicit false

namespace OdooSemantic.Prune

inductive Verdict where
  | gone
  | superseded
  | present
  deriving DecidableEq

inductive ItemLabel where
  | model
  | field
  | method
  | testClass
  | testHelper
  | testMethod
  | view
  | qwebTmpl
  | report
  | owlComp
  | jsPatch
  | jsTestSuite
  | stylesheet
  | lintViolation
  | assetBundle
  | other (name : String)
  deriving DecidableEq

structure StaleNode where
  label : ItemLabel
  name : Option String
  model : Option String
  xmlid : Option String
  filePath : Option String
  testClass : Option String
  target : Option String
  twin : Bool
  parentLive : Bool

inductive RelType where
  | dependsOn
  | delegatesTo
  | usesField
  | dependsOnField
  | usesCoreSymbol
  | imports
  | inherits
  | other (name : String)
  deriving DecidableEq

structure StaleRel where
  type : RelType
  startName : Option String
  startFile : Option String
  endLabels : List ItemLabel
  endName : Option String
  endXmlid : Option String
  endFile : Option String
  endQualifiedName : Option String
  endRecordXmlid : Option String
  twin : Bool
  endStatus : Option String

/-- `text or …`: the text when it is not empty. -/
def given (text : Option String) : Option String := text.filter (· != "")

/-- `r.end_qualified_name or r.end_name`. -/
def StaleRel.symbol (rel : StaleRel) : Option String :=
  (given rel.endQualifiedName).or (given rel.endName)

end OdooSemantic.Prune
