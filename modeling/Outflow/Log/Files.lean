import Outflow.Outcome

/-!
# Log files

The files and directories that logs are written to, and how a log file is found and opened.

* `Path`, `Path.ofCodes`, `Path.text`: a path by its parts, read from a text and written out;
* `Location`, `Path.location`: the names on the way from the root, and the location that a path leads to;
* `Files`: the working directory, the files with their texts, and the directories;
* `Files.makeDirectories`, `Files.open?`: the file at a path, created with the directories above it;
* `Files.append`, `Files.listing`.

A location has no steps upwards, so all paths that lead to one file lead to one location.  An open fails for
what logs themselves have put in the way, or for the code points of the path.  What else a system may refuse,
such as a name that is too long or a directory without permission, is left out, and so are links, devices, and
files that were there before.
-/

namespace Outflow.Log

open Text (Codes codesOf quoted)

/-! ### Paths -/

/-- A path: its slashes at the start, of which it may have none, one or two, and its parts. -/
structure Path where
  root : Codes
  parts : List Codes

namespace Path

/-- The stretches of a text between its slashes. -/
def stretches : Codes → List Codes
  | [] => [[]]
  | c :: rest =>
    match stretches rest with
    | [] => [[c]]
    | first :: others => if c = 47 then [] :: first :: others else (c :: first) :: others

/-- The path that a text spells.  Empty parts and single dots do not count, steps upwards do; more than two
slashes at the start count as one. -/
def ofCodes (cs : Codes) : Path :=
  let slashes := cs.takeWhile (· == 47)
  ⟨if slashes.length ≤ 2 then slashes else [47],
    (stretches cs).filter fun part => part != [] && part != codesOf "."⟩

/-- Parts with slashes between them. -/
def joined (parts : List Codes) : Codes := [47].intercalate parts

/-- A path as it is written; one without anything is a single dot. -/
def text (p : Path) : Codes :=
  if p.root = [] ∧ p.parts = [] then codesOf "." else p.root ++ joined p.parts

/-- The path to the directory above. -/
def parent (p : Path) : Path := { p with parts := p.parts.dropLast }

end Path

/-- A place among the files: the names on the way from the root. -/
abbrev Location := List Codes

/-- One part further on the way, or one step upwards.  Above the root there is the root. -/
def Location.along (l : Location) (part : Codes) : Location :=
  if part = codesOf ".." then l.dropLast else l ++ [part]

namespace Path

/-- Where a path begins. -/
def start (p : Path) (home : Location) : Location := if p.root = [] then home else []

/-- The location that a path leads to. -/
def location (p : Path) (home : Location) : Location := p.parts.foldl .along (p.start home)

/-- The path from the root to the location that a path leads to. -/
def absolute (p : Path) (home : Location) : Path :=
  ⟨if p.root = [] then [47] else p.root, p.location home⟩

end Path

/-! ### Failures -/

/-- Why a log file cannot be opened. -/
inductive FileError
  /-- A file stands where a directory is needed. -/
  | exists (path : Codes)
  /-- A file stands further above. -/
  | notDirectory (path : Codes)
  | isDirectory (path : Codes)
  | nullCharacter
  /-- A stretch of surrogates at a position of the path, the first of which stands for no byte. -/
  | unencodable (position : Nat) (stretch : Codes)
  deriving DecidableEq

/-- The class of a file error. -/
def FileError.label : FileError → String
  | .exists _ => systemLabel 17
  | .notDirectory _ => systemLabel 20
  | .isDirectory _ => systemLabel 21
  | .nullCharacter => "ValueError"
  | .unencodable .. => "UnicodeEncodeError"

/-- The wording of a file error. -/
def FileError.message : FileError → String
  | .exists path => (Fault.ofNumber 17 ("File exists: " ++ quoted path)).message
  | .notDirectory path => (Fault.ofNumber 20 ("Not a directory: " ++ quoted path)).message
  | .isDirectory path => (Fault.ofNumber 21 ("Is a directory: " ++ quoted path)).message
  | .nullCharacter => "embedded null byte"
  | .unencodable position stretch =>
    "'utf-8' codec can't encode character"
      ++ (if stretch.length = 1 then " " ++ quoted stretch ++ " in position " ++ toString position
        else "s in position " ++ toString position ++ "-" ++ toString (position + stretch.length - 1))
      ++ ": surrogates not allowed"

/-- Whether a code point is a surrogate. -/
def isSurrogate (c : Nat) : Bool := 0xD800 ≤ c && c < 0xE000

/-- Whether a surrogate stands for a byte that could not be decoded. -/
def isByteMark (c : Nat) : Bool := 0xDC80 ≤ c && c < 0xDD00

/-- Why a path is refused before any file is looked at. -/
def refusal? (path : Codes) : Option FileError :=
  match path.findIdx? fun c => isSurrogate c && !isByteMark c with
  | some i => some (.unencodable i ((path.drop i).takeWhile isSurrogate))
  | none => if path.contains 0 then some .nullCharacter else none

/-! ### Files -/

/-- The working directory, the files with their texts, and the directories besides those on the way to the
working directory. -/
structure Files where
  home : Location
  files : List (Location × String)
  directories : List Location

namespace Files

/-- No file, and no directory but those on the way to the working directory. -/
def ofHome (home : Location) : Files := ⟨home, [], []⟩

/-- No file, and no directory but the root. -/
def empty : Files := .ofHome []

/-- Whether there is a file at a location. -/
def hasFile (fs : Files) (l : Location) : Bool := fs.files.any fun f => f.1 == l

/-- Whether there is a directory at a location. -/
def hasDirectory (fs : Files) (l : Location) : Bool := l.isPrefixOf fs.home || fs.directories.contains l

/-- The directories on the way along the rest of a path, of which `passed` leads to `l`, with those that are
missing.  A file in the way of a directory that is still to be made is named as what exists, once one was
`made`; until then the whole path is refused, since it leads through no directory. -/
def makeDirectories (fs : Files) (passed : Path) (l : Location) (made : Bool) :
    List Codes → Except FileError Files
  | [] => .ok fs
  | part :: rest =>
    let here : Path := { passed with parts := passed.parts ++ [part] }
    let l := l.along part
    if fs.hasFile l then
      .error (if made || rest.isEmpty then .exists here.text
        else .notDirectory { here with parts := here.parts ++ rest }.text)
    else if fs.hasDirectory l then fs.makeDirectories here l made rest
    else { fs with directories := fs.directories ++ [l] }.makeDirectories here l true rest

/-- The file at a path, created with the directories above it if need be.  If that fails the files are as they
were: a directory that was made on the way is forgotten, which shows only if a later log is to be a file in
its place. -/
def open? (fs : Files) (written : Codes) : Except FileError (Files × Location) :=
  let path := Path.ofCodes written
  match refusal? path.parent.text with
  | some e => .error e
  | none =>
    match fs.makeDirectories ⟨path.root, []⟩ (path.start fs.home) false path.parts.dropLast with
    | .error e => .error e
    | .ok made =>
      let l := path.location fs.home
      let absolute := (path.absolute fs.home).text
      match refusal? absolute with
      | some e => .error e
      | none =>
        if made.hasDirectory l then .error (.isDirectory absolute)
        else if made.hasFile l then .ok (made, l)
        else .ok ({ made with files := made.files ++ [(l, "")] }, l)

/-- Writes at the end of a file. -/
def append (fs : Files) (l : Location) (text : String) : Files :=
  { fs with files := fs.files.map fun f => if f.1 = l then (f.1, f.2 ++ text) else f }

/-- Every file by its path from the root, with its text, in the order of the paths. -/
def listing (fs : Files) : List (Codes × String) :=
  (fs.files.map fun f => (Path.text ⟨[47], f.1⟩, f.2)).mergeSort fun a b => !b.1.lex a.1 Nat.blt

end Files

end Outflow.Log
