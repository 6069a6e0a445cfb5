import LayeredConfig.Fault
import LayeredConfig.Path

/-! Files as they are seen from a working directory. -/

namespace LayeredConfig

/-- Why the system cannot be asked for a path at all: it has no bytes, or a zero is among them. -/
def Path.flaw? (p : Path) : Option Fault :=
  match p.text.systemBytes with
  | .error place => some (.unwritable place)
  | .ok bytes => if bytes.contains 0 then some .nullInPath else none

inductive Lookup where
  | file (bytes : ByteArray)
  | directory
  | failed (failure : AccessFailure)

abbrev Files := Path → Lookup

/-- The files and the empty directories of a tree, by their segments from the working
directory. A directory that holds something need not be listed. -/
structure FileTree where
  files : List (List Text × ByteArray)
  directories : List (List Text)

namespace FileTree

/-- The greatest number of bytes in one segment, and in a path with its end mark. -/
def maxSegment : Nat := 255
def maxPath : Nat := 4096

def byteCount (t : Text) : Nat :=
  match t.systemBytes with
  | .ok bytes => bytes.length
  | .error _ => t.length

def isDirectory (t : FileTree) (spot : List Text) : Bool :=
  spot.isEmpty || t.directories.any spot.isPrefixOf ||
    t.files.any fun f => spot.isPrefixOf f.1 && spot ≠ f.1

/-- Where a walk stands: at some segments below the working directory, or outside of it, where
only directories above are known. -/
inductive Place where
  | inside (spot : List Text)
  | outside

def walk (t : FileTree) (place : Place) : List Text → Lookup
  | [] =>
    match place with
    | .outside => .directory
    | .inside spot =>
      match t.files.lookup spot with
      | some bytes => .file bytes
      | none => if t.isDirectory spot then .directory else .failed .notFound
  | s :: rest =>
    if maxSegment < byteCount s then .failed .nameTooLong
    else match place with
      | .outside => if s = (".." : Text) then t.walk .outside rest else .failed .notFound
      | .inside spot =>
        if s = (".." : Text) then
          t.walk (if spot.isEmpty then .outside else .inside spot.dropLast) rest
        else
          let here := spot ++ [s]
          if (t.files.lookup here).isSome then
            if rest.isEmpty then t.walk (.inside here) rest else .failed .notDirectory
          else if t.isDirectory here then t.walk (.inside here) rest
          else .failed .notFound

def lookup (t : FileTree) (p : Path) : Lookup :=
  if maxPath ≤ byteCount p.text then .failed .nameTooLong
  else t.walk (if p.root.isEmpty then .inside [] else .outside) p.segments

end FileTree

end LayeredConfig
