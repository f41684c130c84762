import SicDebugger.Text.Split

/-!
# File trees

What the debugger sees of the file system: folders and the files in them, and the folder that it
works in. A path is followed name by name through folders that are there; `..` goes to the folder
above, and the root is above itself.
-/

namespace SicDebugger

/-- An entry of a folder. -/
structure FolderEntry where
  name : String
  isFile : Bool
deriving DecidableEq, Repr, Inhabited

/-- Folders and files by their names from the root, and the working folder. The folders on the way
to any of them are there too. -/
structure FileTree where
  home : List String
  folders : List (List String)
  files : List (List String)
deriving DecidableEq, Repr, Inhabited

namespace FileTree

/-- Whether there is a folder of the names. -/
def isFolder (t : FileTree) (names : List String) : Bool :=
  (t.home :: t.folders).any names.isPrefixOf ||
    t.files.any fun f => names.isPrefixOf f && decide (names.length < f.length)

/-- Goes from a folder by one name. -/
def enter? (t : FileTree) (folder : List String) (name : String) : Option (List String) :=
  if name = "" ∨ name = "." then some folder
  else if name = ".." then some folder.dropLast
  else
    let next := folder ++ [name]
    if t.isFolder next then some next else none

/-- The folder of a path. -/
def folder? (t : FileTree) (path : String) : Option (List String) :=
  let names := (Text.split '/' path.toList).map String.ofList
  if path = "" then none
  else names.foldlM t.enter? (if path.toList.head? = some '/' then [] else t.home)

/-- The entries of the folder of the names, each once. -/
def entriesOf (t : FileTree) (folder : List String) : List FolderEntry :=
  let below := fun (names : List String) =>
    if folder.isPrefixOf names then names.drop folder.length else []
  let ofFile := fun (names : List String) =>
    match below names with
    | [] => none
    | [name] => some (⟨name, true⟩ : FolderEntry)
    | name :: _ => some ⟨name, false⟩
  let ofFolder := fun (names : List String) => (below names).head?.map (⟨·, false⟩)
  (t.files.filterMap ofFile ++ (t.home :: t.folders).filterMap ofFolder).eraseDups

/-- The entries of the folder of a path, if there is one. -/
def entries? (t : FileTree) (path : String) : Option (List FolderEntry) :=
  (t.folder? path).map t.entriesOf

/-- The tree with the given paths below the working folder, those with a slash at the end being
folders. -/
def ofPaths (home : List String) (paths : List String) : FileTree :=
  let names := fun (path : String) =>
    home ++ ((Text.split '/' path.toList).map String.ofList).filter (· ≠ "")
  let isFolder := fun (path : String) => path.toList.getLast? = some '/'
  { home
    folders := (paths.filter isFolder).map names
    files := (paths.filter (!isFolder ·)).map names }

end FileTree
end SicDebugger
