/-!
What a path leads to. The steps of a path are taken one after the other, and the first one that
cannot be taken says why there is nothing to read.
-/

namespace SqlScript

inductive ReadError where
  | notFound
  | denied
  | notFolder
  | isFolder
  | nameTooLong
  | invalidText
  | other (reason : String)
  deriving DecidableEq, Repr

namespace ReadError

def numbered (reason : String) (code : Nat) : String :=
  reason ++ " (os error " ++ toString code ++ ")"

def message : ReadError → String
  | notFound => numbered "No such file or directory" 2
  | denied => numbered "Permission denied" 13
  | notFolder => numbered "Not a directory" 20
  | isFolder => numbered "Is a directory" 21
  | nameTooLong => numbered "File name too long" 36
  | invalidText => "stream did not contain valid UTF-8"
  | other reason => reason

def ofCode? : Nat → Option ReadError
  | 2 => some notFound
  | 13 => some denied
  | 20 => some notFolder
  | 21 => some isFolder
  | 36 => some nameTooLong
  | _ => none

end ReadError

def decodeText (bytes : ByteArray) : Except ReadError String :=
  match String.fromUTF8? bytes with
  | some text => .ok text
  | none => .error .invalidText

inductive Entry where
  | file (content : ByteArray)
  | folder (entries : List (String × Entry))

/--
An entry and the folders that it is in, the innermost one first.
-/
structure Place where
  entry : Entry
  within : List Entry := []

namespace Path

def longestName : Nat := 255

def longest : Nat := 4095

def steps : List Char → List (List Char)
  | [] => [[]]
  | c :: cs =>
    match steps cs with
    | [] => [[c]]
    | name :: names => if c == '/' then [] :: name :: names else (c :: name) :: names

theorem steps_ne_nil (cs : List Char) : steps cs ≠ [] := by
  induction cs with
  | nil => simp [steps]
  | cons c cs ih =>
    simp only [steps]
    split
    · contradiction
    · split <;> simp

theorem intercalate_steps (cs : List Char) : List.intercalate ['/'] (steps cs) = cs := by
  induction cs with
  | nil => rfl
  | cons c cs ih =>
    simp only [steps]
    split
    · next h => exact absurd h (steps_ne_nil cs)
    · next name names h =>
      rw [h] at ih
      split
      · next hc => simp_all [List.intercalate, List.intersperse]
      · cases names <;> simp_all [List.intercalate, List.intersperse]

end Path

namespace Place

/--
Take one step. Only a folder can be stepped from; an empty name and a single dot stay in it, and two
dots lead out of it unless it is the outermost one.
-/
def step (place : Place) (name : String) : Except ReadError Place :=
  match place.entry with
  | .file _ => .error .notFolder
  | .folder entries =>
    if name = "" ∨ name = "." then
      .ok place
    else if name = ".." then
      match place.within with
      | [] => .ok place
      | outer :: within => .ok ⟨outer, within⟩
    else if Path.longestName < name.utf8ByteSize then
      .error .nameTooLong
    else
      match entries.lookup name with
      | some entry => .ok ⟨entry, place.entry :: place.within⟩
      | none => .error .notFound

def root (place : Place) : Place :=
  ⟨place.within.getLastD place.entry, []⟩

/--
Follow a path. One with a slash in front starts from the outermost folder.
-/
def follow (place : Place) (path : String) : Except ReadError Place :=
  if Path.longest < path.utf8ByteSize then
    .error .nameTooLong
  else
    let start := if path.startsWith "/" then place.root else place
    (Path.steps path.toList).foldlM (fun place name => place.step (String.ofList name)) start

def read (place : Place) (path : String) : Except ReadError String := do
  match (← place.follow path).entry with
  | .file content => decodeText content
  | .folder _ => throw .isFolder

end Place

namespace Entry

/--
The entry with a file put where the names lead, through folders that are made if need be.
-/
def put (content : ByteArray) : List String → Entry → Entry
  | [], _ => .file content
  | name :: names, entry =>
    let entries :=
      match entry with
      | .folder entries => entries
      | .file _ => []
    let inner := (entries.lookup name).getD (.folder [])
    .folder ((name, put content names inner) :: entries.filter (·.1 ≠ name))

/--
The outermost folders of a system. The one of the devices has a file without content and the
standard input.
-/
def system (stdin : ByteArray) : Entry :=
  let devices := folder [("null", file .empty), ("stdin", file stdin)]
  let others :=
    ["bin", "boot", "etc", "home", "lib", "media", "mnt", "opt", "proc", "root", "run", "sbin",
      "srv", "sys", "tmp", "usr", "var"]
  folder (("dev", devices) :: others.map (·, folder []))

end Entry

def Place.ofFiles (files : List (String × ByteArray)) (stdin : ByteArray) : Place :=
  let put (folder : Entry) (file : String × ByteArray) :=
    folder.put file.2 ((Path.steps file.1.toList).map String.ofList)
  ⟨files.foldl put (.folder []), [.folder [], .system stdin]⟩

end SqlScript
