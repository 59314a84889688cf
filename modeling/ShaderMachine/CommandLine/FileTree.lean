import ShaderMachine.CommandLine.Action

/-! # File trees

Files and directories in memory, for carrying out an action without touching a disk.

**`Path`** is a path taken apart into steps; **`FileTree`** says what stands at each place, and
**`FileTree.walk`** follows the steps of a path from directory to directory. **`FileTree.read`**
and **`FileTree.write`** find a file as a system does, with its faults, and **`Action.runIn`**
carries out an action. -/

namespace ShaderMachine

/-! ## Paths -/

/-- One step of a path. -/
inductive PathStep where
  /-- Stay in the directory. -/
  | stay
  /-- Go to the directory that holds this one; the root holds itself. -/
  | up
  /-- Go to what has a name in this directory. -/
  | enter (name : String)
  deriving DecidableEq, Repr

/-- The step that a nonempty segment between slashes stands for. -/
def PathStep.ofSegment (segment : String) : PathStep :=
  if segment = "." then stay else if segment = ".." then up else enter segment

/-- A path taken apart. -/
structure Path where
  /-- Whether the steps start at the root and not in the working directory. -/
  absolute : Bool
  /-- The steps, in order. -/
  steps : List PathStep
  /-- Whether a slash follows the last step. -/
  endsInSlash : Bool
  deriving DecidableEq, Repr

namespace Path

/-- The largest number of bytes of a path. -/
def longest : Nat :=
  4095

/-- The largest number of bytes of a name. -/
def longestName : Nat :=
  255

/-- Take a path apart. The empty path leads nowhere, and a path may be too long. -/
def ofText (text : String) : Except FileFault Path :=
  if text = "" then .error .notFound
  else if longest < text.utf8ByteSize then .error .nameTooLong
  else
    let segments := (text.toList.splitOn '/').map String.ofList
    .ok ⟨segments.head? = some "", (segments.filter (· ≠ "")).map .ofSegment,
      segments.getLast? = some ""⟩

/-- Whether the last step is a name with a slash after it, which only a directory can follow. -/
def namesDirectory (path : Path) : Bool :=
  match path.steps.getLast? with
  | some (.enter _) => path.endsInSlash
  | _ => false

end Path

/-! ## Trees -/

/-- A place: the names on the way from the root. -/
abbrev FilePlace := List String

/-- What stands at a place. -/
inductive FileNode where
  /-- A file. -/
  | file (contents : Bytes)
  /-- A directory. -/
  | directory
  /-- A device that is always empty and forgets what is written. -/
  | sink
  /-- A device that never ends and has no room. -/
  | full
  deriving DecidableEq

/-- Files and directories in memory. -/
structure FileTree where
  /-- What stands at each place other than the root. -/
  nodes : List (FilePlace × FileNode)
  /-- The working directory, where relative paths start. -/
  working : FilePlace
  deriving DecidableEq

namespace FileTree

/-- What stands at a place, if anything does. The root is a directory. -/
def nodeAt? (tree : FileTree) (place : FilePlace) : Option FileNode :=
  if place = [] then some .directory
  else (tree.nodes.find? fun node => node.1 = place).map Prod.snd

/-- The tree with something at a place, instead of what was there. -/
def put (tree : FileTree) (place : FilePlace) (node : FileNode) : FileTree :=
  { tree with nodes := tree.nodes.filter (fun other => other.1 ≠ place) ++ [(place, node)] }

/-- The directories right below the root of a system. -/
def systemDirectories : List String :=
  ["bin", "boot", "dev", "etc", "home", "lib", "media", "mnt", "opt", "proc", "root", "run",
    "sbin", "srv", "sys", "tmp", "usr", "var"]

/-- A system with an empty working directory, which has a name that no path spells. -/
def system : FileTree :=
  ⟨systemDirectories.map (fun name => ([name], .directory)) ++
    [(["dev", "null"], .sink), (["dev", "full"], .full), (["tmp", ""], .directory)],
    ["tmp", ""]⟩

/-- The tree with a file at a place and directories on the way to it. -/
def addFile (tree : FileTree) (place : FilePlace) (contents : Bytes) : FileTree :=
  let reached := (List.range place.length).foldl
    (fun tree depth =>
      let way := place.take depth
      if (tree.nodeAt? way).isSome then tree else tree.put way .directory)
    tree
  reached.put place (.file contents)

/-- A system with files at the given paths below its working directory, a later one instead of an
earlier one. -/
def ofFiles (files : List (String × Bytes)) : FileTree :=
  files.foldl
    (fun tree file =>
      let names := (file.1.toList.splitOn '/').map String.ofList
      tree.addFile (tree.working ++ names.filter fun name => name ≠ "" ∧ name ≠ ".") file.2)
    system

/-! ## Walking -/

/-- Take a step. It starts in a directory, but nothing needs to stand where it leads. -/
def step (tree : FileTree) (place : FilePlace) (step : PathStep) : Except FileFault FilePlace :=
  match tree.nodeAt? place with
  | none => .error .notFound
  | some .directory =>
      match step with
      | .stay => .ok place
      | .up => .ok place.dropLast
      | .enter name =>
          if Path.longestName < name.utf8ByteSize then .error .nameTooLong
          else .ok (place ++ [name])
  | some _ => .error .notDirectory

/-- Take steps, one after the other. -/
def walk (tree : FileTree) (start : FilePlace) (steps : List PathStep) :
    Except FileFault FilePlace :=
  steps.foldlM tree.step start

/-- Where a path starts. -/
def start (tree : FileTree) (path : Path) : FilePlace :=
  if path.absolute then [] else tree.working

/-- Read the file at a path. -/
def read (tree : FileTree) (path : String) : Except FileFault Bytes := do
  let path ← Path.ofText path
  let place ← tree.walk (tree.start path) path.steps
  match tree.nodeAt? place with
  | none => .error .notFound
  | some .directory => .error .isDirectory
  | some node =>
      if path.endsInSlash then .error .notDirectory
      else match node with
        | .file contents => .ok contents
        | .full => .error (.other "out of memory")
        | _ => .ok []

/-- Write the file at a path, in place of what it held. A path that names a directory fails before
that name is looked up, so the walk ends in what holds it. -/
def write (tree : FileTree) (path : String) (contents : Bytes) : Except FileFault FileTree := do
  let path ← Path.ofText path
  if path.namesDirectory then
    let _ ← tree.walk (tree.start path) (path.steps.dropLast ++ [.stay])
    .error .isDirectory
  else
    let place ← tree.walk (tree.start path) path.steps
    match tree.nodeAt? place with
    | some .directory => .error .isDirectory
    | some .sink => .ok tree
    | some .full => .error .noSpace
    | _ => .ok (tree.put place (.file contents))

end FileTree

/-- Carry out an action in a file tree. -/
def Action.runIn (tree : FileTree) : Action → Report × FileTree
  | .finish report => (report, tree)
  | .read file next => (next (tree.read file)).runIn tree
  | .write file contents next =>
      match tree.write file contents with
      | .ok changed => (next (.ok ())).runIn changed
      | .error fault => (next (.error fault)).runIn tree

end ShaderMachine
