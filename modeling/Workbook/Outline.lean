/-
The outline of a workbook: its folders and expressions, found from the root
outwards, each under the lower case form of its path.  Of several items of a
folder whose names agree up to case, the oldest is found.
-/
import Workbook.Text.Case
import Workbook.Tree

namespace Workbook

/-- The form of a path that decides whether two paths are the same. -/
def pathKey (path : String) : String :=
  "/".intercalate ((pathParts path).map Text.lower)

/-- The key of a name in a folder. -/
def childKey (parent name : String) : String :=
  joinPath parent (Text.lower name)

namespace Outline

structure Folder where
  key : String
  name : String
  /-- The names on the way from the root, as they were written. -/
  segments : List String
  createdAt : Int
  /-- The key of the folder around it; the root has none. -/
  parent : Option String
  deriving DecidableEq, Repr

structure Expression where
  key : String
  name : String
  segments : List String
  language : Language
  createdAt : Int
  parent : String
  deriving DecidableEq, Repr

namespace Expression

/-- The path as it was written. -/
def path (e : Expression) : String :=
  Tree.path e.segments

end Expression

/-- The folder that all others are in. -/
def root : Folder :=
  ⟨"", "", [], 0, none⟩

end Outline

/-- Folders and expressions in the order they are found. -/
structure Outline where
  folders : List Outline.Folder
  expressions : List Outline.Expression

namespace Outline

def folder? (o : Outline) (key : String) : Option Folder :=
  o.folders.find? (·.key == key)

def expression? (o : Outline) (key : String) : Option Expression :=
  o.expressions.find? (·.key == key)

/-- The folders directly in a folder. -/
def childFolders (o : Outline) (key : String) : List Folder :=
  o.folders.filter (·.parent == some key)

/-- The expressions directly in a folder. -/
def childExpressions (o : Outline) (key : String) : List Expression :=
  o.expressions.filter (·.parent == key)

/-- The paths of the folders in a folder, each before what is in it; `fuel` bounds how
deep they are nested. -/
def pathsIn (o : Outline) : Nat → String → List String
  | 0, _ => []
  | fuel + 1, key =>
    (o.childFolders key).flatMap fun f => Tree.path f.segments :: o.pathsIn fuel f.key

/-- The paths of all folders, each before what is in it. -/
def folderPaths (o : Outline) : List String :=
  o.pathsIn o.folders.length ""

/-! ## Finding everything -/

/-- Whether a name can be part of a path. -/
def isName (s : String) : Bool :=
  s != "" && !s.toList.contains '/'

/-- Adds an item of a folder unless something has its key. -/
def add (f : Folder) (o : Outline) (i : Tree.Item) : Outline :=
  let key := childKey f.key i.name
  if !isName i.name || (o.folder? key).isSome || (o.expression? key).isSome then o
  else
    let segments := f.segments ++ [i.name]
    match i.kind with
    | .folder =>
      { o with folders := o.folders ++ [⟨key, i.name, segments, i.createdAt, some f.key⟩] }
    | .expression =>
      let language := i.language.getD .formula
      { o with
        expressions :=
          o.expressions ++ [⟨key, i.name, segments, language, i.createdAt, f.key⟩] }

/-- The items of a folder, the oldest first; none if it cannot be listed. -/
def itemsOf (t : Tree) (f : Folder) : List Tree.Item :=
  match t.list f.segments with
  | .ok items => items.mergeSort fun a b => a.createdAt ≤ b.createdAt
  | .error _ => []

/-- Adds what is in the folders from number `next` on, folders that are found on
the way included. -/
def explore (t : Tree) : Nat → Nat → Outline → Outline
  | 0, _, o => o
  | fuel + 1, next, o =>
    match o.folders[next]? with
    | none => o
    | some f => explore t fuel (next + 1) ((itemsOf t f).foldl (add f) o)

/-- The outline of a tree.  Each folder but the root is an item of a listing, and
no listing is read twice. -/
def ofTree (t : Tree) : Outline :=
  let items := t.listings.flatMap fun (_, l) => l.getD []
  explore t (items.length + 1) 0 ⟨[root], []⟩

end Outline
end Workbook
