import TabKey.Program.Host

namespace TabKey.Program

structure Folder where
  files : List (String × Option String)
  printed : String := ""
  /-- Lines for the user. -/
  complaints : List String := []
deriving DecidableEq, Repr

namespace Folder

def name? (path : String) : Option String :=
  let name :=
    match path.toList with
    | '.' :: '/' :: rest => String.ofList rest
    | _ => path
  if name.isEmpty || name.toList.contains '/' || name = "." || name = ".." then none else some name

def put (name : String) (content : Option String) :
    List (String × Option String) → List (String × Option String)
  | [] => [(name, content)]
  | (n, c) :: rest => if n = name then (n, content) :: rest else (n, c) :: put name content rest

def read (path : String) (f : Folder) : Option String := do (← f.files.lookup (← name? path))

def write (path content : String) (f : Folder) : Bool × Folder :=
  match name? path with
  | some name => (true, { f with files := put name (some content) f.files })
  | none => (false, f)

def append (path addition : String) (f : Folder) : Bool × Folder :=
  match name? path with
  | some name =>
    let old := (f.files.lookup name).getD (some "")
    (true, { f with files := put name (old.map (· ++ addition)) f.files })
  | none => (false, f)

def host : Host (StateM Folder) where
  read path f := (f.read path, f)
  write path content f := f.write path content
  append path addition f := f.append path addition
  print text f := ((), { f with printed := f.printed ++ text })
  complain line f := ((), { f with complaints := f.complaints ++ [line] })
  now f := ("0", f)

end Folder

end TabKey.Program
