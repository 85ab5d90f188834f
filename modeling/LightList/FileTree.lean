/-
This file holds the files of a machine, one of whose directories is the working directory.

A path is followed component by component, from the root if it begins with a slash and otherwise from
the working directory. Every component but the last must be a directory, and so must the last one if
a slash or a dot follows it.

There are no links, no permissions and no devices but the null device. Directories are never full, so
only the bytes of a file can be refused.
-/

import LightList.FileFault
import LightList.Path

namespace LightList

/-- The null device takes everything, keeps nothing and is read as empty. -/
inductive FileTree.Entry where
  | file (bytes : List UInt8)
  | directory
  | nullDevice
deriving DecidableEq

/-- Each entry has the names that lead to it from the root, and so has the working directory. -/
structure FileTree where
  home : List String
  entries : List (List String × FileTree.Entry)

namespace FileTree

/-- The working directory holds nothing, and besides it there is only the null device. -/
def empty : FileTree := ⟨["work"], [(["dev"], .directory), (["dev", "null"], .nullDevice)]⟩

/-- The working directory and the directories above it are always there. -/
def entryAt? (tree : FileTree) (place : List String) : Option Entry :=
  if place.isPrefixOf tree.home then some .directory else tree.entries.lookup place

/-- The new entry replaces the one that was there. -/
def put (tree : FileTree) (place : List String) (entry : Entry) : FileTree where
  home := tree.home
  entries :=
    if (tree.entries.lookup place).isSome then
      tree.entries.map fun existing =>
        if existing.1 = place then (existing.1, entry) else existing
    else tree.entries ++ [(place, entry)]

def addDirectory (tree : FileTree) (place : List String) : FileTree :=
  if (tree.entryAt? place).isSome then tree else tree.put place .directory

/-- The directories on the way to a place are made. -/
def addParents (tree : FileTree) (place : List String) : FileTree :=
  (List.range place.length).foldl (fun made count => made.addDirectory (place.take count)) tree

/-- This is where a path leads: to an entry, or to a name that is free in a directory. -/
inductive Target where
  | existing (place : List String) (entry : Entry)
  | free (place : List String) (mustBeDirectory : Bool)

/-- The longest name of a single component, in bytes. -/
def longestName : Nat := 255

/-- The longest path, in bytes. -/
def longestPath : Nat := 4095

/-- A component that is not the last must exist and be a directory. Above the root is the root. -/
def follow (tree : FileTree) (place : List String) : List String → Except FileFault Target
  | [] =>
      match tree.entryAt? place with
      | some entry => .ok (.existing place entry)
      | none => .error .notFound
  | component :: rest =>
      match tree.entryAt? place with
      | none => .error .notFound
      | some (.file _) => .error .notDirectory
      | some .nullDevice => .error .notDirectory
      | some .directory =>
          if component = "" ∨ component = "." then tree.follow place rest
          else if component = ".." then tree.follow place.dropLast rest
          else if longestName < component.utf8ByteSize then .error .nameTooLong
          else
            let next := place ++ [component]
            if (tree.entryAt? next).isNone ∧ rest.all String.isEmpty then
              .ok (.free next !rest.isEmpty)
            else tree.follow next rest

/-- A path that begins with a slash leads from the root. -/
def target (tree : FileTree) (path : String) : Except FileFault Target :=
  if path.toList.contains '\x00' then .error .nulInName
  else if path.isEmpty then .error .notFound
  else if longestPath < path.utf8ByteSize then .error .nameTooLong
  else
    match (Path.components path).map String.ofList with
    | "" :: rest => tree.follow [] rest
    | steps => tree.follow tree.home steps

def read (tree : FileTree) (path : String) : Except FileFault (List UInt8) :=
  match tree.target path with
  | .error fault => .error fault
  | .ok (.free _ _) => .error .notFound
  | .ok (.existing _ .directory) => .error .isDirectory
  | .ok (.existing _ .nullDevice) => .ok []
  | .ok (.existing _ (.file bytes)) => .ok bytes

/-- This is what a write leaves behind, also where it fails, and what its target took. -/
structure Attempt where
  files : FileTree
  taken : List UInt8
  fault? : Option FileFault

/-- The file is emptied before the bytes go out, so where they are cut off it holds the first ones. -/
def fill (tree : FileTree) (limit? : Option Limit) (place : List String) (bytes : List UInt8) :
    Attempt where
  files := tree.put place (.file (Limit.taken limit? bytes))
  taken := Limit.taken limit? bytes
  fault? := Limit.fault? limit? bytes

/-- A file is made or replaced; a directory can be neither, and the null device stays as it is. -/
def write (tree : FileTree) (limit? : Option Limit) (path : String) (bytes : List UInt8) :
    Attempt :=
  match tree.target path with
  | .error fault => ⟨tree, [], some fault⟩
  | .ok (.free _ true) => ⟨tree, [], some .isDirectory⟩
  | .ok (.existing _ .directory) => ⟨tree, [], some .isDirectory⟩
  | .ok (.existing _ .nullDevice) => ⟨tree, bytes, none⟩
  | .ok (.free place false) => tree.fill limit? place bytes
  | .ok (.existing place (.file _)) => tree.fill limit? place bytes

/-- These are the files in the working directory and below it, each with its path from there. -/
def files (tree : FileTree) : List (String × List UInt8) :=
  tree.entries.filterMap fun entry =>
    match entry.2 with
    | .file bytes =>
        if tree.home.isPrefixOf entry.1 then
          some (String.intercalate "/" (entry.1.drop tree.home.length), bytes)
        else none
    | _ => none

/-- These are the files that an older tree does not have in the same state. -/
def changedSince (tree older : FileTree) : List (String × List UInt8) :=
  (tree.files.filter fun file => older.files.lookup file.1 ≠ some file.2).mergeSort
    fun first second => decide (first.1 ≤ second.1)

/-- A name that ends in a slash makes a directory. Names lead from the working directory. -/
def add (tree : FileTree) (name : String) (bytes : List UInt8) : FileTree :=
  let parts := (Path.components name).map String.ofList
  let place := tree.home ++ parts.filter fun part => !part.isEmpty
  let prepared := tree.addParents place
  if parts.getLast? = some "" then prepared.addDirectory place
  else prepared.put place (.file bytes)

end FileTree

end LightList
