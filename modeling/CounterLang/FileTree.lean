import CounterLang.Text.Utf8

/-!
# File trees

Where a program is loaded from: a tree of directories with files in it, and the paths that lead
through it. A path with a zero or a surrogate in it, which no system takes, leads nowhere.

## Main definitions

* `Path.normalize`: a path without the parts that mean nothing.
* `Lookup`: what a path leads to.
* `FileTree`: what is in the current directory.
* `FileTree.find`: what a path leads to. Outside the current directory only the directories that
  every system has are known.
-/

namespace CounterLang

namespace Path

/-- The names of a path, without those that are empty or mean the directory itself. -/
def parts (path : Text) : List Text :=
  (path.splitOn (.scalar '/')).filter fun part => part != [] && part != "."

/-- The slashes at the start of a path that count: two if there are just two, and at most one
otherwise. -/
def root (path : Text) : Text :=
  match (path.takeWhile (· == .scalar '/')).length with
  | 0 => ""
  | 2 => "//"
  | _ => "/"

/-- The path without repeated and closing slashes and without the names that mean the directory
itself. Steps to the parent directory are kept. -/
def normalize (path : Text) : Text :=
  let text := root path ++ Text.join "/" (parts path)
  if text = [] then "." else text

/-- The most bytes of a path. -/
def maxLength : Nat := 4095

/-- The most bytes of a name in a path. -/
def maxNameLength : Nat := 255

def parent : Text := ".."

end Path

/-- What a path leads to. -/
inductive Lookup where
  | file (bytes : List UInt8)
  /-- Nothing, or something that is not a regular file. -/
  | noFile
  /-- The path, or a name in an existing directory on its way, has too many bytes. -/
  | nameTooLong
deriving DecidableEq, Repr

/-- Names one below another. -/
def below (parents names : List Text) : List (List Text) := names.map fun name => parents ++ [name]

/-- The directories that every system has, each by the names that lead to it from the root. -/
def standardDirectories : List (List Text) :=
  [[]] ++
    below [] ["boot", "dev", "etc", "home", "media", "mnt", "opt", "root", "run", "srv", "tmp",
      "usr", "var"] ++
    below ["usr"] ["bin", "games", "include", "lib", "lib64", "libexec", "local", "sbin", "share",
      "src"] ++
    below ["usr", "local"] ["bin", "etc", "games", "include", "lib", "sbin", "share", "src"] ++
    below ["usr", "share"] ["doc", "man", "zoneinfo"] ++
    below ["var"] ["backups", "cache", "lib", "local", "log", "mail", "opt", "spool", "tmp"] ++
    below ["etc"] ["alternatives", "apt", "default", "dpkg", "init.d", "opt", "pam.d", "profile.d",
      "security", "skel"] ++
    below ["run"] ["lock"] ++ below ["dev"] ["pts", "shm"]

/-- The names that stand for directories elsewhere. -/
def standardLinks : List (List Text × List Text) :=
  [(["bin"], ["usr", "bin"]), (["sbin"], ["usr", "sbin"]), (["lib"], ["usr", "lib"]),
    (["lib64"], ["usr", "lib64"]), (["var", "run"], ["run"]), (["var", "lock"], ["run", "lock"])]

/-- The current directory with the directories and files in it. -/
structure FileTree where
  /-- The files, each by the names that lead to it from the current directory. -/
  files : List (List Text × List UInt8)
  /-- The directories, each by the names that lead to it. Those on the way to a file need not be
  listed. -/
  directories : List (List Text) := []
deriving Repr

namespace FileTree

/-- The names that lead to the current directory. It is a temporary one, and its own name, which is
not known, is left empty: no path holds that name. -/
def current : List Text := ["tmp", []]

/-- The names that lead to a place from the current directory, if it is not outside of it. -/
def inside? (place : List Text) : Option (List Text) :=
  if current.isPrefixOf place then some (place.drop current.length) else none

def isDirectory (tree : FileTree) (place : List Text) : Bool :=
  match inside? place with
  | none => standardDirectories.contains place
  | some names =>
    names.isEmpty || tree.directories.any names.isPrefixOf ||
      tree.files.any fun file => names != file.1 && names.isPrefixOf file.1

def contents (tree : FileTree) (place : List Text) : Lookup :=
  match (inside? place).bind fun names => tree.files.reverse.lookup names with
  | some bytes => .file bytes
  | none => .noFile

/-- What the names lead to from a place. The parent of the root is the root. -/
def walk (tree : FileTree) (place : List Text) : List Text → Lookup
  | [] => tree.contents place
  | name :: rest =>
    if !tree.isDirectory place then .noFile
    else if name = Path.parent then walk tree place.dropLast rest
    else if Path.maxNameLength < Text.Utf8.encodedLength name then .nameTooLong
    else
      let next := place ++ [name]
      walk tree ((standardLinks.lookup next).getD next) rest

def find (tree : FileTree) (path : Text) : Lookup :=
  if path.any fun point => point = .scalar '\x00' || point.isSurrogate then .noFile
  else if Path.maxLength < Text.Utf8.encodedLength path then .nameTooLong
  else tree.walk (if Path.root path = [] then current else []) (Path.parts path)

end FileTree

end CounterLang
