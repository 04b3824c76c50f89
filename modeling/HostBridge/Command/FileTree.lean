import HostBridge.Config

/-!
# File trees

A file tree stands for the files that a command can be given. Looking up a path follows its steps
one by one, and the first step that cannot be taken decides what is found.
-/

namespace HostBridge

namespace Command

/-- A file, or a directory with its entries. -/
inductive FileTree where
  | file (content : ByteArray)
  | directory (entries : List (String × FileTree))

namespace FileTree

/-- The most bytes that a path can have. -/
def pathLimit : Nat := 4095

/-- The most bytes that one step of a path can have. -/
def stepLimit : Nat := 255

/-- The steps of a path. A slash at the end asks for a directory, which is a step in place. -/
def steps (path : String) : List String :=
  (path.splitOn "/").filter (· != "") ++ if path.endsWith "/" then ["."] else []

/-- What is found when steps are taken from a place; the directories `above` it come innermost
first. The root is its own parent. -/
def walk (above : List FileTree) : FileTree → List String → BuildConfig.FileContent
  | .file content, [] => .bytes content
  | .directory _, [] => .directory
  | .file _, _ :: _ => .blocked
  | .directory entries, step :: rest =>
      if step = "." then walk above (.directory entries) rest
      else if step = ".." then
        match above with
        | [] => walk [] (.directory entries) rest
        | parent :: above => walk above parent rest
      else if step.utf8ByteSize > stepLimit then .tooLong
      else
        match entries.lookup step with
        | some tree => walk (.directory entries :: above) tree rest
        | none => .missing

/-- What is found at a path, given the root and the steps to the working directory. -/
def find (root : FileTree) (working : List String) (path : String) : BuildConfig.FileContent :=
  if path.isEmpty then .missing
  else if path.utf8ByteSize > pathLimit then .tooLong
  else if path.startsWith "/" then walk [] root (steps path)
  else walk [] root (working ++ steps path)

end FileTree

end Command

end HostBridge
