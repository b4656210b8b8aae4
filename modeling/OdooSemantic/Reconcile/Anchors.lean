import Mathlib.Data.List.DropRight
import OdooSemantic.Prune.Judge

/-!
# The directories of the owners of a shared module

A file path that is stored for a shared module starts with a directory of one of its owners.
It is moved into the directory of another owner by the longest one it starts with.
-/

set_option autoImplicit false

namespace OdooSemantic.Reconcile

open Lib.Py Lib.Runs Prune

/-- An owner's row: its module directory in the repository and its checkout. -/
structure Owner where
  path : Option String
  localPath : Option String

/-- `text.strip("/")`. -/
def stripSlashes (text : String) : String :=
  String.ofList ((text.toList.dropWhile (· == '/')).rdropWhile (· == '/'))

def Owner.dir (owner : Owner) : String := stripSlashes (owner.path.getD "")

def Owner.home (owner : Owner) : String := if owner.dir = "" then "" else owner.dir ++ "/"

/-- The slashes `PurePosixPath` keeps before the first part. -/
def rootOf : List Char → String
  | '/' :: '/' :: '/' :: _ => "/"
  | '/' :: '/' :: _ => "//"
  | '/' :: _ => "/"
  | _ => ""

/-- `str(Path(local_path) / rel)`. -/
def checkoutPath (localPath rel : String) : String :=
  let text := rootOf localPath.toList ++
    join "/" ((pathParts localPath.toList ++ pathParts rel.toList).map String.ofList)
  if text = "" then "." else text

/-- `str(Path(local_path) / rel).rstrip("/") + "/"`. -/
def Owner.checkout (owner : Owner) : Option String :=
  (given owner.localPath).map fun localPath =>
    String.ofList ((checkoutPath localPath owner.dir).toList.rdropWhile (· == '/')) ++ "/"

def Owner.forms (owner : Owner) : List String :=
  (if owner.dir = "" then [] else [owner.home]) ++ owner.checkout.toList

/-- `_owner_anchors`: the longest first; those of one length are in no order that matters. -/
def ownerAnchors (owners : List Owner) : List String :=
  sortedBy (fun anchor => OrderDual.toDual anchor.length) (owners.flatMap Owner.forms).dedup

/-- `text[n:]`. -/
def dropChars (count : Nat) (text : String) : String := String.ofList (text.toList.drop count)

def reanchor (owner : Owner) (anchors : List String) (path : Option String) : Option String :=
  match given path with
  | none => path
  | some text =>
      match anchors.find? (startsWith (slashes text)) with
      | none => path
      | some anchor => some (owner.home ++ dropChars anchor.length (slashes text))

variable {owners : List Owner} {owner : Owner} {path : String} {name : List Char}

def Owner.starts (owner : Owner) : List String := owner.home :: owner.checkout.toList

def Unshadowed (owners : List Owner) (start path : String) : Prop :=
  ∀ anchor ∈ ownerAnchors owners, startsWith path anchor = true → anchor.length ≤ start.length

def EndsIn (name path : List Char) : Prop :=
  name ≠ [] ∧ '/' ∉ name ∧ name ≠ ['.'] ∧
    ∃ lead, path = lead ++ name ∧ ∀ char, lead.getLast? = some char → char = '/'

def FilePath (path : String) : Prop :=
  slashes path = path ∧ ∃ name, EndsIn name path.toList

end OdooSemantic.Reconcile
