import FastSchema.Disk.Basic

/-!
# File systems as values

A tree of directories and files, given by the places of its entries, and a working directory that
relative paths start from. Reading and writing fail as they do on a disk, also where a path or a
name in it is too long. A place is written as the names that lead to it from the root, each after a
slash, so one place has one text.
-/

namespace FastSchema.Disk

/-! ## Places -/

structure Place where
  text : String
deriving DecidableEq, Repr, Inhabited

namespace Place

def root : Place := ⟨""⟩

def child (place : Place) (name : String) : Place := ⟨place.text ++ "/" ++ name⟩

/-- The place without its last name. The root is its own parent. -/
def parent (place : Place) : Place :=
  ⟨String.ofList ((place.text.toList.reverse.dropWhile (· ≠ '/')).drop 1).reverse⟩

def ofNames (names : List String) : Place := names.foldl child root

end Place

/-! ## File systems -/

def maxNameSize : Nat := 255

def maxPathSize : Nat := 4095

inductive Entry where
  | directory
  | file (content : List UInt8)
deriving DecidableEq, Repr, Inhabited

structure FileSystem where
  workingDirectory : Place
  entries : List (Place × Entry)
deriving DecidableEq, Repr, Inhabited

namespace FileSystem

/-- The entry at a place. The root is always a directory. -/
def lookup (fs : FileSystem) (place : Place) : Option Entry :=
  if place = .root then some .directory else fs.entries.lookup place

/-- Puts an entry at a place. -/
def set (fs : FileSystem) (place : Place) (entry : Entry) : FileSystem :=
  { fs with entries := (place, entry) :: fs.entries.filter (·.1 ≠ place) }

/-- The place that one segment leads to from a directory. -/
def step (place : Place) (segment : String) : Except Failure Place :=
  if Path.isIdle segment then .ok place
  else if segment = ".." then .ok place.parent
  else if maxNameSize < segment.utf8ByteSize then .error .nameTooLong
  else .ok (place.child segment)

/-- The place that segments lead to. Each segment but the last has to lead to a directory. -/
def follow (fs : FileSystem) (place : Place) : List String → Except Failure Place
  | [] => .ok place
  | segment :: segments =>
    match fs.lookup place with
    | none => .error .notFound
    | some (.file _) => .error .notDirectory
    | some .directory =>
      match step place segment with
      | .error e => .error e
      | .ok next => follow fs next segments

def start (fs : FileSystem) (p : Path) : Place :=
  if p.isAbsolute then .root else fs.workingDirectory

/-- The place that a path leads to, whether or not there is an entry. -/
def resolve (fs : FileSystem) (p : Path) : Except Failure Place :=
  if p.text.toList.contains '\x00' then .error .nulInPath
  else if p.text = "" then .error .notFound
  else if maxPathSize < p.text.utf8ByteSize then .error .nameTooLong
  else fs.follow (fs.start p) p.segments

def isDirectory (fs : FileSystem) (p : Path) : Bool :=
  match fs.resolve p with
  | .ok place => fs.lookup place = some .directory
  | .error _ => false

def read (fs : FileSystem) (p : Path) : Except Failure (List UInt8) := do
  match fs.lookup (← fs.resolve p) with
  | some (.file content) => return content
  | some .directory => throw .isDirectory
  | none => throw .notFound

def write (fs : FileSystem) (p : Path) (content : List UInt8) : Except Failure FileSystem := do
  let place ← fs.resolve p
  if fs.lookup place = some .directory then throw .isDirectory
  return fs.set place (.file content)

def createDir (fs : FileSystem) (p : Path) : Except Failure FileSystem := do
  let place ← fs.resolve p
  if (fs.lookup place).isSome then throw .alreadyExists
  return fs.set place .directory

/-- Creates the directories that segments lead through from a place, as far as they are missing.
What has been created before a failure stays. -/
def createMissing (fs : FileSystem) (place : Place) :
    List String → Except Failure Unit × FileSystem
  | [] => (.ok (), fs)
  | segment :: segments =>
    match step place segment with
    | .error e => (.error e, fs)
    | .ok next =>
      match fs.lookup next with
      | some .directory => createMissing fs next segments
      | some (.file _) => (.error .alreadyExists, fs)
      | none => createMissing (fs.set next .directory) next segments

/-- Creates a directory and those it lies in, as far as they are missing. The others are created
only where the first attempt finds that one of them is missing. -/
def createDirs (fs : FileSystem) (p : Path) : Except Failure Unit × FileSystem :=
  if p.text = "" then (.ok (), fs)
  else
    match fs.createDir p with
    | .ok fs => (.ok (), fs)
    | .error .notFound =>
      if fs.lookup (fs.start p) = some .directory then fs.createMissing (fs.start p) p.segments
      else (.error .notFound, fs)
    | .error e => (if fs.isDirectory p then .ok () else .error e, fs)

def disk : Disk (StateM FileSystem) where
  read p := do return (← get).read p
  createDirs p := modifyGet (·.createDirs p)
  write p content := modifyGet fun fs =>
    match fs.write p content with
    | .ok fs => (.ok (), fs)
    | .error e => (.error e, fs)

theorem lookup_root (fs : FileSystem) : fs.lookup .root = some .directory := by
  simp [lookup]

theorem lookup_filter_ne {place q : Place} (h : q ≠ place) (entries : List (Place × Entry)) :
    (entries.filter (·.1 ≠ place)).lookup q = entries.lookup q := by
  induction entries with
  | nil => rfl
  | cons e entries ih =>
    obtain ⟨found, entry⟩ := e
    by_cases hp : found = place
    · have hb : (q == found) = false := beq_false_of_ne (hp ▸ h)
      rw [List.filter_cons_of_neg (by simp [hp]), ih, List.lookup_cons, hb]
    · rw [List.filter_cons_of_pos (by simp [hp]), List.lookup_cons, List.lookup_cons, ih]

/-- What is put at a place is found there, and nothing else changes. -/
theorem lookup_set (fs : FileSystem) {place : Place} (h : place ≠ .root) (entry : Entry)
    (q : Place) :
    (fs.set place entry).lookup q = if q = place then some entry else fs.lookup q := by
  by_cases hq : q = place
  · simp [lookup, set, hq, h]
  · have hb : (q == place) = false := beq_false_of_ne hq
    unfold lookup
    rw [if_neg hq]
    split
    · rfl
    · rw [set, List.lookup_cons, hb]
      exact lookup_filter_ne hq fs.entries

end FileSystem

end FastSchema.Disk
