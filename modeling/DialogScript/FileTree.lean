import DialogScript.Library
import DialogScript.Log.Snapshot

/-!
# Files

A file tree is a map from places, counted from its root, to files and directories, seen from a
working directory. Paths are looked up component by component, so the first component that stands in
the way decides how a look-up fails.

## Main definitions

* `SystemError`: why a path cannot be used
* `FileTree`, `FileTree.read`, `FileTree.write`, `FileTree.has`
* `Loader.ofTree`: dialogs from files
* `FileTree.saveLog`, `FileTree.loadLog`: condition logs in files
-/

namespace DialogScript

/-- Why a path cannot be used. -/
inductive SystemError
  | notFound
  | notADirectory
  | isADirectory
  | nameTooLong
  | nulInName
  deriving DecidableEq, Repr

/-- The text that tells of a failure. -/
def SystemError.message : SystemError → String
  | notFound => "No such file or directory (os error 2)"
  | notADirectory => "Not a directory (os error 20)"
  | isADirectory => "Is a directory (os error 21)"
  | nameTooLong => "File name too long (os error 36)"
  | nulInName => "file name contained an unexpected NUL byte"

/-- What a path leads to. -/
inductive FileNode
  | file (content : List UInt8)
  | directory
  deriving DecidableEq, Repr

/-- Files and directories by their places, which are the names on the way from the root. The root
itself is not listed. -/
structure FileTree where
  nodes : List (List String × FileNode) := []
  /-- The place from which paths lead that do not begin at the root. -/
  workingDirectory : List String := []
  deriving Repr, Inhabited

namespace FileTree

/-- The components of a path. -/
def components (path : String) : List String :=
  let (last, rest) := path.toList.foldr (fun c (current, done) =>
    if c = '/' then ([], String.ofList current :: done) else (c :: current, done)) ([], [])
  String.ofList last :: rest

/-- What stands at a place. -/
def node? (tree : FileTree) (place : List String) : Option FileNode :=
  if place = [] then some .directory else tree.nodes.lookup place

/-- The tree with something else at a place. -/
def put (tree : FileTree) (place : List String) (node : FileNode) : FileTree :=
  { tree with nodes := (place, node) :: tree.nodes.filter (·.1 ≠ place) }

/-- What is put at a place stands there. -/
theorem node?_put_self (tree : FileTree) {place : List String} (h : place ≠ []) (node : FileNode) :
    (tree.put place node).node? place = some node := by
  simp [node?, put, h]

/-- Leaving out what stands at a place leaves the other places as they are. -/
theorem lookup_filter_of_ne {place other : List String} (h : other ≠ place) :
    (nodes : List (List String × FileNode)) →
      (nodes.filter (·.1 ≠ place)).lookup other = nodes.lookup other
  | [] => rfl
  | (key, node) :: rest => by
    have ih := lookup_filter_of_ne h rest
    by_cases hp : key = place
    · have hn : (other == key) = false := by rw [hp]; exact beq_eq_false_iff_ne.2 h
      rw [List.filter_cons_of_neg (by simp [hp]), ih, List.lookup_cons, hn]
    · rw [List.filter_cons_of_pos (by simp [hp]), List.lookup_cons, List.lookup_cons, ih]

/-- Putting something at a place leaves the other places as they are. -/
theorem node?_put_of_ne (tree : FileTree) {place other : List String} (h : other ≠ place)
    (node : FileNode) : (tree.put place node).node? other = tree.node? other := by
  by_cases hr : other = []
  · simp [node?, hr]
  · have hn : (other == place) = false := beq_eq_false_iff_ne.2 h
    rw [node?, node?, if_neg hr, if_neg hr, put, List.lookup_cons, hn]
    exact lookup_filter_of_ne h tree.nodes

/-- The tree with a place and the directories that lead to it. -/
def insert (tree : FileTree) (place : List String) (node : FileNode) : FileTree :=
  let parents := (List.range place.length).filterMap fun n =>
    let parent := place.take n
    if (tree.node? parent).isSome then none else some (parent, FileNode.directory)
  { tree with nodes := parents ++ tree.nodes }.put place node

/-- Where a path leads: to something, or to a free name in a directory. -/
inductive Found
  | node (place : List String) (node : FileNode)
  | free (place : List String)
  deriving Repr

/-- Follows components from a place. Empty components and single dots stay where they are but ask
for a directory; double dots lead to the directory above, and from the root to the root. -/
def follow (tree : FileTree) (place : List String) : List String → Except SystemError Found
  | [] =>
    match tree.node? place with
    | some node => .ok (.node place node)
    | none => .error .notFound
  | name :: rest =>
    if tree.node? place ≠ some .directory then .error .notADirectory
    else if name = "" ∨ name = "." then tree.follow place rest
    else if name = ".." then tree.follow place.dropLast rest
    else if 255 < name.utf8ByteSize then .error .nameTooLong
    else
      let next := place ++ [name]
      match tree.node? next, rest with
      | some _, _ => tree.follow next rest
      | none, [] => .ok (.free next)
      | none, _ => .error .notFound

/-- Checks a path before it is looked up, and hands it on as the place where it begins and its
components. -/
def begin (tree : FileTree) (path : String) : Except SystemError (List String × List String) :=
  if path.toList.contains (Char.ofNat 0) then .error .nulInName
  else if path = "" then .error .notFound
  else if 4095 < path.utf8ByteSize then .error .nameTooLong
  else if path.toList.head? = some '/' then .ok ([], components path)
  else .ok (tree.workingDirectory, components path)

/-- Where a path leads. -/
def find (tree : FileTree) (path : String) : Except SystemError Found := do
  let (place, names) ← tree.begin path
  tree.follow place names

/-- A path leads to something. -/
def has (tree : FileTree) (path : String) : Bool :=
  match tree.find path with
  | .ok (.node _ _) => true
  | _ => false

/-- The content of a file. -/
def read (tree : FileTree) (path : String) : Except SystemError (List UInt8) :=
  match tree.find path with
  | .ok (.node _ (.file content)) => .ok content
  | .ok (.node _ .directory) => .error .isADirectory
  | .ok (.free _) => .error .notFound
  | .error e => .error e

/-- Where a path leads that a file is to be written at. A name with a slash behind it asks for a
directory, whatever stands there. -/
def target (tree : FileTree) (path : String) : Except SystemError Found := do
  let (place, names) ← tree.begin path
  match names.reverse.takeWhile (· = ""), names.reverse.dropWhile (· = "") with
  | _ :: _, name :: before =>
    if name = "." ∨ name = ".." then tree.follow place names
    else
      discard (tree.follow place ("" :: before).reverse)
      .error .isADirectory
  | _, _ => tree.follow place names

/-- The tree with a new content of a file, which need not exist. -/
def write (tree : FileTree) (path : String) (content : List UInt8) :
    Except SystemError FileTree := do
  match ← tree.target path with
  | .node place (.file _) | .free place => return tree.put place (.file content)
  | .node _ .directory => .error .isADirectory

/-- The text of the file at a path, which is named in the error. -/
def readText (tree : FileTree) (path : String) : Except SystemError String :=
  (tree.read path).map fun content => String.ofList (Utf8.decodeLossy content)

/-- Saves a condition log in a file, in place of what it held. -/
def saveLog (tree : FileTree) (path : String) (log : Log) : Except Error FileTree :=
  match tree.write path log.toBytes with
  | .ok tree => .ok tree
  | .error e => .error { kind := .io s!"failed to create file '{path}': {e.message}" }

/-- Loads a condition log from a file. -/
def loadLog (tree : FileTree) (path : String) : Except Error Log :=
  match tree.read path with
  | .error .isADirectory =>
    .error { kind := .io s!"failed to read file '{path}': {SystemError.isADirectory.message}" }
  | .error e => .error { kind := .io s!"failed to open file '{path}': {e.message}" }
  | .ok content => Log.ofSaved content

end FileTree

/-- Finds dialogs in the files of a tree. -/
def Loader.ofTree (tree : FileTree) : Loader := fun name =>
  let path := dialogFileName name
  match tree.readText path with
  | .ok source => .ok source
  | .error .notFound => .error (.notFound name)
  | .error e => .error { kind := .io s!"failed to read '{path}': {e.message}" }

end DialogScript
