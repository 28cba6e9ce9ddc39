/-
Where the folders and source texts of a workbook come from: the listings of the
folders and the texts of the expressions, each under its path.
-/
import Workbook.Json
import Workbook.Keyed
import Workbook.Language
import Workbook.Number.Word

namespace Workbook

/-- The parts of a path between its slashes. -/
def pathParts (path : String) : List String :=
  (path.splitOn "/").filter (· ≠ "")

/-- A path with one more part. -/
def joinPath (parent name : String) : String :=
  if parent = "" then name else parent ++ "/" ++ name

namespace Tree

inductive ItemKind
  | folder
  | expression
  deriving DecidableEq, Repr

namespace ItemKind

def name : ItemKind → String
  | .folder => "folder"
  | .expression => "expression"

def ofName? : String → Option ItemKind
  | "folder" => some .folder
  | "expression" => some .expression
  | _ => none

end ItemKind

/-- An item of a folder.  Items are ordered by when they were created. -/
structure Item where
  kind : ItemKind
  name : String
  createdAt : Int
  language : Option Language
  deriving DecidableEq, Repr

end Tree

/-- Listings and source texts.  A listing or text that cannot be had is none. -/
structure Tree where
  listings : List (String × Option (List Tree.Item))
  sources : List (String × Option String)
  /-- When the last item was created. -/
  clock : Nat

namespace Tree

/-- A path that cannot be read. -/
structure NotFound where
  path : String
  deriving DecidableEq, Repr

def NotFound.message (e : NotFound) : String :=
  "no such folder: '" ++ e.path ++ "'"

def path (segments : List String) : String :=
  "/".intercalate segments

/-- The items of a folder. -/
def list (t : Tree) (segments : List String) : Except NotFound (List Item) :=
  match t.listings.lookup (path segments) with
  | some (some items) => .ok items
  | _ => .error ⟨path segments⟩

/-- The source text of an expression, if it has one. -/
def text (t : Tree) (segments : List String) : Except NotFound (Option String) :=
  match t.sources.lookup (path segments) with
  | some (some s) => .ok (some s)
  | some none => .error ⟨path segments⟩
  | none => .ok none

/-! ## Building a tree -/

/-- A tree with nothing in it. -/
def empty : Tree :=
  ⟨[("", some [])], [], 0⟩

/-- The items under a path, none if there is no listing. -/
def itemsAt (t : Tree) (parent : String) : List Item :=
  ((t.listings.lookup parent).bind id).getD []

/-- Adds an item at the end of a listing. -/
def addItem (t : Tree) (parent : String) (kind : ItemKind) (name : String)
    (language : Option Language) : Tree :=
  let item : Item := ⟨kind, name, t.clock + 1, language⟩
  { t with
    listings := Keyed.put parent (some (t.itemsAt parent ++ [item])) t.listings
    clock := t.clock + 1 }

/-- A folder directly in another. -/
def addSubfolder (t : Tree) (parent name : String) : Tree :=
  let there := (t.itemsAt parent).any fun i => i.kind = .folder && i.name = name
  let t := if there then t else t.addItem parent .folder name none
  let child := joinPath parent name
  if (t.listings.lookup child).isSome then t
  else { t with listings := Keyed.put child (some []) t.listings }

/-- Folders each in the one before. -/
def addFolders (t : Tree) (parent : String) : List String → Tree
  | [] => t
  | name :: rest => (t.addSubfolder parent name).addFolders (joinPath parent name) rest

/-- A folder with the folders around it, as far as they are missing. -/
def addFolder (t : Tree) (path : String) : Tree :=
  t.addFolders "" (pathParts path)

/-- An expression with the folders around it, as far as they are missing.  Its
text takes the place of one that was there. -/
def addExpression (t : Tree) (path : String) (language : Language) (source : String) : Tree :=
  match (pathParts path).getLast? with
  | none => t
  | some name =>
    let parent := Tree.path (pathParts path).dropLast
    let t := (t.addFolder parent).addItem parent .expression name (some language)
    { t with sources := Keyed.put (joinPath parent name) (some source) t.sources }

/-! ## Items in JSON -/

/-- A name, or an object whose only key is the name. -/
def variant? : Json → Option String
  | .string s => some s
  | .object [(s, .null)] => some s
  | _ => none

def languageOf? : Json → Option (Option Language)
  | .null => some none
  | v => ((variant? v).bind Language.ofName?).map some

/-- An item from its fields. -/
def itemOf? (kind name createdAt : Json) (language : Option Json) : Option Item := do
  let kind ← (variant? kind).bind ItemKind.ofName?
  let name ← name.string?
  let created ← createdAt.integer?
  let language ← languageOf? (language.getD .null)
  if Number.fitsWord created then some ⟨kind, name, created, language⟩ else none

/-- The item that a JSON value describes, as an object or as a list of fields. -/
def itemOfJson? : Json → Option Item
  | .array [kind, name, createdAt] => itemOf? kind name createdAt none
  | .array [kind, name, createdAt, language] => itemOf? kind name createdAt (some language)
  | v@(.object _) => do
    itemOf? (← v.get? "kind") (← v.get? "name") (← v.get? "createdAt") (v.get? "language")
  | _ => none

/-- A listing in JSON; items that describe nothing are left out. -/
def listingOfJson : Json → Option (List Item)
  | .array items => some (items.filterMap itemOfJson?)
  | _ => none

/-- A tree that answers exactly what it is given. -/
def ofJson (lists sources : List (String × Json)) : Tree :=
  let source : Json → Option (Option String)
    | .string s => some (some s)
    | .object _ => some none
    | _ => none
  { listings := lists.map fun (k, v) => (k, listingOfJson v)
    sources := sources.filterMap fun (k, v) => (source v).map (k, ·)
    clock := 0 }

end Tree
end Workbook
