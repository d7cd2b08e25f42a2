import NetworkLoading.FileTree

/-!
# Hosts

What a program needs from the machine it runs on. The effects of a host are left open; a tree of
files is one which can be reasoned about.
-/

namespace NetworkLoading

structure Host (m : Type → Type) where
  /-- The text of the file at a path. -/
  read : String → m (Except FileFault String)
  /-- Creates the directory at a path, unless it is there. Yields whether it is there now. -/
  makeDirectory : String → m Bool
  /-- Writes the file at a path. Yields whether it could be written. -/
  write : (path text : String) → m Bool

/-- The host whose files are those of a tree. -/
def Host.ofTree : Host (StateM FileTree) where
  read path := fun t => (t.read path, t)
  makeDirectory path := fun t =>
    match t.makeDirectory path with
    | some t => (true, t)
    | none => (false, t)
  write path text := fun t =>
    match t.write path text with
    | .ok t => (true, t)
    | .error _ => (false, t)

end NetworkLoading
