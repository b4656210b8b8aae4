import OdooSemantic.Prune.Monotone
import OdooSemantic.Reconcile.Anchors

/-!
# Verdicts of the owners of a shared module

An item of a shared module is judged against the copy of each owner, with its file moved into
the owner's directory.  It is deleted when no owner keeps it.
-/

set_option autoImplicit false

namespace OdooSemantic.Reconcile

open Lib.Py Lib.Regex Prune

structure OwnerCopy where
  owner : Owner
  oracle : Oracle
  source : ModuleSource
  mapped : ∀ path ∈ source.paths, slashes path = path →
    source.relPath oracle.repo (some path) = some path

def movedNode (owner : Owner) (owners : List Owner) (node : StaleNode) : StaleNode :=
  { node with filePath := reanchor owner (ownerAnchors owners) node.filePath }

def movedRel (owner : Owner) (owners : List Owner) (rel : StaleRel) : StaleRel :=
  { rel with
    startFile := reanchor owner (ownerAnchors owners) rel.startFile
    endFile := reanchor owner (ownerAnchors owners) rel.endFile }

def moved (owner : Owner) (owners : List Owner) : StaleItem → StaleItem
  | .node node => .node (movedNode owner owners node)
  | .rel rel => .rel (movedRel owner owners rel)

def OwnerCopy.verdict (copy : OwnerCopy) (owners : List Owner) (item : StaleItem) : Verdict :=
  copy.oracle.verdict copy.source (moved copy.owner owners item)

section Declares
variable (oracle : Oracle) (source : ModuleSource) (path : String)

def DeclaresMember (kind : MemberKind) (node : StaleNode) : Prop :=
  ∃ name, given node.name = some name ∧
    oracle.shown source kind.form name pythonSuffix (some [path]) = true ∧
    ∀ model, given node.model = some model → path ∈ (oracle.index source).unparsed ∨
      ∃ cls ∈ (oracle.index source).byPath path,
        (oracle.index source).declares kind name model cls = true

def DeclaresIdent (form : Form) (suffixes : Option (List String)) (ident : Option String) : Prop :=
  ∃ name, ident = some name ∧ oracle.shown source form name suffixes (some [path]) = true

def DeclaresNode (node : StaleNode) : Prop :=
  match node.label with
  | .model => DeclaresIdent oracle source path .model none (given node.name)
  | .field => DeclaresMember oracle source path .field node
  | .method => DeclaresMember oracle source path .method node
  | .testClass => DeclaresIdent oracle source path .cls pythonSuffix (given node.name)
  | .testHelper => DeclaresIdent oracle source path .cls pythonSuffix (given node.name)
  | .testMethod =>
      DeclaresIdent oracle source path .cls pythonSuffix (given node.testClass) ∧
        DeclaresIdent oracle source path .method none (given node.name)
  | .view => DeclaresIdent oracle source path .token none ((given node.xmlid).map localPart)
  | .qwebTmpl => DeclaresIdent oracle source path .token none ((given node.xmlid).map localPart)
  | .report => DeclaresIdent oracle source path .token none ((given node.xmlid).map localPart)
  | .owlComp => DeclaresIdent oracle source path .cls none (given node.name)
  | .assetBundle => True
  | .other _ => True
  | _ => oracle.filePresent source node path ≠ some false

/-- The file has the end of the relationship as the oracle looks for it. -/
def DeclaresRel (rel : StaleRel) : Prop :=
  match rel.type with
  | .dependsOn => path ∈ source.manifests ∧
      DeclaresIdent oracle source path .token none (given rel.endName)
  | .delegatesTo => path ∈ source.candidates oracle.tables "_inherits" pythonSuffix ∧
      oracle.endIdentPresent source rel pythonSuffix (some [path]) ≠ some false
  | .inherits => oracle.endIdentPresent source rel pythonSuffix (some [path]) ≠ some false
  | .imports => oracle.endIdentPresent source rel none (some [path]) ≠ some false
  | .other _ => oracle.endIdentPresent source rel none (some [path]) ≠ some false
  | _ => ∃ name ident text cut, given rel.startName = some name ∧ rel.symbol = some ident ∧
      (path, text, cut) ∈ regionCuts oracle.tables oracle.reader source name ∧
      search (tokenPattern oracle.tables (lastPart ident)) (cut.text text) = true

def Declares : StaleItem → Prop
  | .node node => DeclaresNode oracle source path node
  | .rel rel => DeclaresRel oracle source path rel

end Declares

section Found
variable {oracle : Oracle} {source : ModuleSource} {path : String}

variable {form : Form} {suffixes : Option (List String)} {node : StaleNode}

end Found

section Moved
variable {oracle : Oracle} {source : ModuleSource} {owners : List Owner} (owner : Owner)

variable {rel : StaleRel}

end Moved

section Verdicts
variable {owners : List Owner} {copy : OwnerCopy} {start inner : String}

variable {oracle : Oracle} {source : ModuleSource} {node : StaleNode} {rel : StaleRel}

end Verdicts

end OdooSemantic.Reconcile
