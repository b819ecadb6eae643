/-
`core/configuration_handler`: the configurations of the server and of the client.

A configuration is a JSON object in a file. `getData` reads it, and where there is nothing to
read, or nothing that is a JSON object, it writes the default into the file and goes on with
that. What it has then is checked for its structure, and refused if it fails; it is not
repaired then.

The files are shared state again, so the functions are programs over an interface of their own.
There is no choice for the environment in it: whether a file can be opened is a property of the
file. `written` is a history variable: every file that has been opened for writing.
-/
import NetworkApplication.JsonText
import NetworkApplication.Program

set_option autoImplicit false

namespace NetworkApplication

open NetworkApplication.Program

/-! ## The files -/

namespace Files

/-- `fs::path::parent_path`: what is in front of the last slash. -/
def parent_path (path : String) : String :=
  let upToSlash := path.toList.reverse.dropWhile (· ≠ '/')
  let parent := upToSlash.dropWhile (· = '/')
  -- slashes alone are a root without a relative path
  if path.toList.all (· = '/') then path
  else if parent = [] ∧ upToSlash ≠ [] then "/" else String.ofList parent.reverse

/-- The directories on the way to one, and itself: what is in front of each slash, and the whole. -/
def onTheWay (path : String) : List String := go [] path.toList
where
  /-- `passed` are the characters in front of the rest, the last one first. -/
  go (passed : List Char) : List Char → List String
    | [] => [String.ofList passed.reverse]
    | c :: rest =>
      if c = '/' ∧ passed ≠ [] then String.ofList passed.reverse :: go (c :: passed) rest
      else go (c :: passed) rest

/-- The files by their paths, the directories, which of the files can be opened for reading
and for writing, and which directories can be created. -/
structure FileSystem where
  files : String → Option (List UInt8)
  directories : String → Bool
  readable : String → Bool
  writable : String → Bool
  creatable : String → Bool
  written : List String

/-- The operations on it. -/
inductive FileOp where
  | read (filePath : String)
  | exists_ (path : String)
  | is_directory (path : String)
  | create_directory (path : String)
  | write (filePath : String) (content : List UInt8)

/-- The result of each: nothing for a file that cannot be opened for reading, and false for what
has failed. -/
abbrev FileOp.Res : FileOp → Type
  | .read _ => Option (List UInt8)
  | .exists_ _ | .is_directory _ | .create_directory _ | .write _ _ => Bool

abbrev Disk : Signature := ⟨FileOp, FileOp.Res⟩

/-- What reading a file gives. -/
def FileSystem.content (fs : FileSystem) (filePath : String) : Option (List UInt8) :=
  if fs.readable filePath then fs.files filePath else none

/-- A file can be opened for writing: its directory is there, and nothing forbids it. -/
def FileSystem.opensForWriting (fs : FileSystem) (filePath : String) : Bool :=
  fs.writable filePath && (parent_path filePath = "" || fs.directories (parent_path filePath))

/-- A directory more. -/
def FileSystem.addDirectory (fs : FileSystem) (path : String) : FileSystem :=
  { fs with directories := Function.update fs.directories path true }

/-- A file that has been opened for writing and written. -/
def FileSystem.store (fs : FileSystem) (filePath : String) (content : List UInt8) : FileSystem :=
  { fs with files := Function.update fs.files filePath (some content)
            written := fs.written ++ [filePath] }

/-- What the operations do. -/
def fileSem : (o : FileOp) → Unit → FileSystem → Option (o.Res × FileSystem)
  | .read filePath, _, fs => some (fs.content filePath, fs)
  | .exists_ path, _, fs => some (fs.directories path || (fs.files path).isSome, fs)
  | .is_directory path, _, fs => some (fs.directories path, fs)
  | .create_directory path, _, fs =>
    if fs.creatable path && (fs.files path).isNone then some (true, fs.addDirectory path)
    else some (false, fs)
  | .write filePath content, _, fs =>
    if fs.opensForWriting filePath then some (true, fs.store filePath content)
    else some (false, fs)

end Files

open Files

/-- What the handler and the functions it calls throw. -/
inductive ConfigurationError where
  | runtime_error (what : String)
  | invalid_argument (what : String)
  | system_error (ec : ErrorCode)
  | filesystem_error (path : String)
  deriving DecidableEq

/-- A program over the files. -/
abbrev FileProg := Prog Disk ConfigurationError

namespace Files

/-- Perform an operation on the files. -/
def perform (o : FileOp) : FileProg o.Res := Prog.perform (E := Disk) o

/-- `fs::create_directories`: the directories on the way are created where they are missing. -/
def create_directories : List String → FileProg Unit
  | [] => pure ()
  | path :: rest => do
    if ← perform (.is_directory path) then
      create_directories rest
    else if ← perform (.create_directory path) then
      create_directories rest
    else Prog.throw (.filesystem_error path)

/-- Run a program over the files. -/
def exec {α : Type} (p : FileProg α) (fs : FileSystem) :
    Option (Outcome ConfigurationError α × FileSystem) :=
  Prog.run fileSem (fun _ _ => ()) p fs

end Files

/-! ## The handler -/

/-- `enum class Configuration`. -/
inductive Configuration where
  | Connection
  deriving DecidableEq

/-- `enum class User`. -/
inductive User where
  | Server
  | Client
  deriving DecidableEq

namespace Json

/-- `is_object()`, `is_array()`, `is_string()` and `is_int64()`. -/
def is_object : Json → Bool
  | .object _ => true
  | _ => false

def is_array : Json → Bool
  | .array _ => true
  | _ => false

def is_string : Json → Bool
  | .string _ => true
  | _ => false

def is_int64 : Json → Bool
  | .int64 _ => true
  | _ => false

end Json

/-- `ConfigurationHandler`. -/
structure ConfigurationHandler where
  configMap : User × Configuration → Option String

namespace ConfigurationHandler

variable (P : Platform) (handler : ConfigurationHandler)

/-- The constructor. -/
def new : ConfigurationHandler where
  configMap
    | (.Server, .Connection) => some "../config/server_connection.json"
    | (.Client, .Connection) => some "../config/client_connection.json"

/-- `setPath`. -/
def setPath (config : Configuration) (user : User) (path : String) : ConfigurationHandler :=
  ⟨Function.update handler.configMap (user, config) (some path)⟩

/-- `getFilePath`. -/
def getFilePath (config : Configuration) (user : User) : FileProg String :=
  match handler.configMap (user, config) with
  | some path => pure path
  | none => Prog.throw (.invalid_argument "Unknown type")

/-- `readFileJson`. -/
def readFileJson (filePath : String) : FileProg Json := do
  match ← perform (.read filePath) with
  | none => Prog.throw (.runtime_error ("Cannot open file: " ++ filePath))
  | some content =>
    let parsed := P.parse content
    if parsed.error.failed then Prog.throw (.system_error parsed.error)
    else return parsed.value

/-- `writeFileJson` from the opening of the file on. -/
def writeFile (filePath : String) (data : Json) : FileProg Unit := do
  if ← perform (.write filePath (P.serialize data)) then
    return
  else Prog.throw (.runtime_error ("Cannot write to file: " ++ filePath))

/-- `writeFileJson`. -/
def writeFileJson (filePath : String) (data : Json) : FileProg Unit := do
  let parent := parent_path filePath
  if parent = "" then
    writeFile P filePath data
  else if ← perform (.exists_ parent) then
    writeFile P filePath data
  else
    create_directories (onTheWay parent)
    writeFile P filePath data

/-- The fields of the default configuration. -/
def defaultFields : User → List (String × Json)
  | .Server => [("ports", .array [.int64 10000]), ("multiConnect", .array [.bool false]),
      ("magic", .array [.int64 123456])]
  | .Client => [("address", .string "127.0.0.1"), ("port", .int64 10000), ("magic", .int64 123456)]

/-- `createDefaultObject`. -/
def createDefaultObject (user : User) : Json := .object (defaultFields user)

/-- `obj.contains(key)`, and what is there is of a kind. -/
def has (obj : List (String × Json)) (key : String) (kind : Json → Bool) : Bool :=
  match obj.lookup key with
  | some v => kind v
  | none => false

/-- The structure check of `getData`. -/
def validStructure (user : User) (obj : List (String × Json)) : Bool :=
  match user with
  | .Server => has obj "ports" Json.is_array && has obj "multiConnect" Json.is_array &&
      has obj "magic" Json.is_array
  | .Client => has obj "address" Json.is_string && has obj "port" Json.is_int64 &&
      has obj "magic" Json.is_int64

/-- The default is written, and taken instead of what was read. -/
def writeDefault (filePath : String) (user : User) : FileProg Json := do
  let root := createDefaultObject user
  writeFileJson P filePath root
  return root

/-- What parses to something that is no object is replaced by the default. -/
def objectOrDefault (filePath : String) (user : User) (root : Json) : FileProg Json :=
  if root.is_object then pure root else writeDefault P filePath user

/-- `getData` from the structure check on. -/
def checked (user : User) : Json → FileProg (List (String × Json))
  | .object obj =>
    if validStructure user obj then pure obj
    else Prog.throw (.runtime_error "Invalid configuration structure for user")
  | _ => Prog.throw (.runtime_error "value is not an object")

/-- `getData`. -/
def getData (config : Configuration) (user : User) : FileProg (List (String × Json)) := do
  let filePath ← handler.getFilePath config user
  let root ← Prog.tryCatch (readFileJson P filePath) (fun _ => writeDefault P filePath user)
  let root ← objectOrDefault P filePath user root
  checked user root

/-! ## Running the functions -/

variable {P handler} {filePath : String} {config : Configuration} {user : User} {fs fs₁ : FileSystem}

/-- One operation. -/
theorem exec_perform {α : Type} {o : FileOp} {r : o.Res} (h : fileSem o () fs = some (r, fs₁))
    (k : o.Res → FileProg α) : exec (perform o >>= k) fs = exec (k r) fs₁ := by
  apply Prog.run_op
  exact h

/-- Of a file system only directories on the way to the file have been added, and its files are
what they were. -/
structure Prepared (filePath : String) (fs fs₁ : FileSystem) : Prop where
  files : fs₁.files = fs.files
  written : fs₁.written = fs.written
  readable : fs₁.readable = fs.readable
  directories : ∀ path, path ∉ onTheWay (parent_path filePath) →
    fs₁.directories path = fs.directories path

theorem Prepared.refl (filePath : String) (fs : FileSystem) : Prepared filePath fs fs :=
  ⟨rfl, rfl, rfl, fun _ _ => rfl⟩

/-- `create_directories` prepares, and returns or throws. -/
theorem exec_create_directories {paths : List String}
    (hpaths : ∀ path ∈ paths, path ∈ onTheWay (parent_path filePath)) (fs : FileSystem) :
    ∃ out fs₁, exec (create_directories paths) fs = some (out, fs₁) ∧ Prepared filePath fs fs₁ ∧
      (out = .ok () ∨ ∃ e, out = .thrown e) := by
  induction paths generalizing fs with
  | nil => exact ⟨.ok (), fs, rfl, .refl filePath fs, .inl rfl⟩
  | cons path rest ih =>
    have hrest : ∀ p ∈ rest, p ∈ onTheWay (parent_path filePath) :=
      fun p hp => hpaths p (List.mem_cons_of_mem _ hp)
    have hpath := hpaths path (List.mem_cons_self ..)
    unfold create_directories
    rw [exec_perform (o := .is_directory path) (r := fs.directories path) rfl]
    by_cases hdirectory : fs.directories path = true
    · rw [if_pos hdirectory]
      exact ih hrest fs
    rw [if_neg hdirectory]
    by_cases hcreated : (fs.creatable path && (fs.files path).isNone) = true
    · have hsem : fileSem (.create_directory path) () fs = some (true, fs.addDirectory path) := by
        simp only [fileSem, hcreated, if_true]
      rw [exec_perform hsem, if_pos rfl]
      obtain ⟨out, fs₂, hrun, hprepared, hout⟩ := ih hrest (fs.addDirectory path)
      refine ⟨out, fs₂, hrun, ⟨hprepared.files, hprepared.written, hprepared.readable, ?_⟩, hout⟩
      intro p hp
      -- the one that has been created is on the way
      have hne : p ≠ path := fun h => hp (h ▸ hpath)
      rw [hprepared.directories p hp]
      exact Function.update_of_ne hne _ _
    · have hsem : fileSem (.create_directory path) () fs = some (false, fs) := by
        simp only [fileSem, hcreated, if_false, Bool.false_eq_true]
      rw [exec_perform hsem]
      exact ⟨.thrown (.filesystem_error path), fs, rfl, .refl filePath fs, .inr ⟨_, rfl⟩⟩

/-- The file has been written, and nothing else but directories on the way to it has been added. -/
structure Stored (filePath : String) (content : List UInt8) (fs fs₁ : FileSystem) : Prop where
  files : fs₁.files = Function.update fs.files filePath (some content)
  written : fs₁.written = fs.written ++ [filePath]
  readable : fs₁.readable = fs.readable
  directories : ∀ path, path ∉ onTheWay (parent_path filePath) →
    fs₁.directories path = fs.directories path

theorem Prepared.store (h : Prepared filePath fs fs₁) (content : List UInt8) :
    Stored filePath content fs (fs₁.store filePath content) where
  files := by rw [FileSystem.store, h.files]
  written := by rw [FileSystem.store, h.written]
  readable := h.readable
  directories := h.directories

/-- The file is opened and written, or not opened. -/
theorem exec_writeFile (data : Json) (h : Prepared filePath fs fs₁) :
    ∃ out fs₂, exec (writeFile P filePath data) fs₁ = some (out, fs₂) ∧
      ((out = .ok () ∧ Stored filePath (P.serialize data) fs fs₂) ∨
        ((∃ e, out = .thrown e) ∧ Prepared filePath fs fs₂)) := by
  unfold writeFile
  by_cases hopens : fs₁.opensForWriting filePath = true
  · have hsem : fileSem (.write filePath (P.serialize data)) () fs₁
        = some (true, fs₁.store filePath (P.serialize data)) := by
      simp only [fileSem, hopens, if_true]
    rw [exec_perform hsem]
    exact ⟨_, _, rfl, .inl ⟨rfl, h.store _⟩⟩
  · have hsem : fileSem (.write filePath (P.serialize data)) () fs₁ = some (false, fs₁) := by
      simp only [fileSem, hopens, if_false, Bool.false_eq_true]
    rw [exec_perform hsem]
    exact ⟨_, _, rfl, .inr ⟨⟨_, rfl⟩, h⟩⟩

/-- `writeFileJson` writes the file, or throws without having touched it. -/
theorem exec_writeFileJson (filePath : String) (data : Json) (fs : FileSystem) :
    ∃ out fs₁, exec (writeFileJson P filePath data) fs = some (out, fs₁) ∧
      ((out = .ok () ∧ Stored filePath (P.serialize data) fs fs₁) ∨
        ((∃ e, out = .thrown e) ∧ Prepared filePath fs fs₁)) := by
  unfold writeFileJson
  simp only
  split
  · exact exec_writeFile data (.refl filePath fs)
  rw [exec_perform (o := .exists_ (parent_path filePath)) rfl]
  split
  · exact exec_writeFile data (.refl filePath fs)
  obtain ⟨out, fs₁, hrun, hprepared, hout⟩ := exec_create_directories (fun _ h => h) fs
  rcases hout with rfl | ⟨e, rfl⟩
  · obtain ⟨out, fs₂, hwrite, hresult⟩ := exec_writeFile (P := P) data hprepared
    exact ⟨out, fs₂, (Prog.run_bind_ok hrun).trans hwrite, hresult⟩
  · exact ⟨.thrown e, fs₁, Prog.run_bind_thrown hrun, .inr ⟨⟨e, rfl⟩, hprepared⟩⟩

/-- So does the repair, and it has the default then. -/
theorem exec_writeDefault (filePath : String) (user : User) (fs : FileSystem) :
    ∃ out fs₁, exec (writeDefault P filePath user) fs = some (out, fs₁) ∧
      ((out = .ok (createDefaultObject user) ∧
          Stored filePath (P.serialize (createDefaultObject user)) fs fs₁) ∨
        ((∃ e, out = .thrown e) ∧ Prepared filePath fs fs₁)) := by
  obtain ⟨out, fs₁, hrun, hresult⟩ :=
    exec_writeFileJson (P := P) filePath (createDefaultObject user) fs
  rcases hresult with ⟨rfl, hstored⟩ | ⟨⟨e, rfl⟩, hprepared⟩
  · exact ⟨_, fs₁, Prog.run_bind_ok hrun, .inl ⟨rfl, hstored⟩⟩
  · exact ⟨.thrown e, fs₁, Prog.run_bind_thrown hrun, .inr ⟨⟨e, rfl⟩, hprepared⟩⟩

/-! ## Reading -/

/-- The value in a file: what it parses to, if it can be read and parses. -/
def load (P : Platform) (fs : FileSystem) (filePath : String) : Option Json :=
  match fs.content filePath with
  | none => none
  | some content => if (P.parse content).error.failed then none else some (P.parse content).value

/-- `readFileJson` returns that value, or throws; the files stay as they are. -/
theorem exec_readFileJson (filePath : String) (fs : FileSystem) :
    ∃ out, exec (readFileJson P filePath) fs = some (out, fs) ∧
      ((∃ v, out = .ok v ∧ load P fs filePath = some v) ∨
        ((∃ e, out = .thrown e) ∧ load P fs filePath = none)) := by
  unfold readFileJson load
  rw [exec_perform (o := .read filePath) rfl]
  cases fs.content filePath with
  | none => exact ⟨_, rfl, .inr ⟨⟨_, rfl⟩, rfl⟩⟩
  | some content =>
    simp only
    split
    · exact ⟨_, rfl, .inr ⟨⟨_, rfl⟩, rfl⟩⟩
    · exact ⟨_, rfl, .inl ⟨_, rfl, rfl⟩⟩

/-! ## Loading -/

/-- The default passes the check of the next load. -/
theorem validStructure_default (user : User) : validStructure user (defaultFields user) = true := by
  cases user with
  | Server => rfl
  | Client => rfl

/-- Its text gives it back. -/
theorem reparsed_default (user : User) :
    (createDefaultObject user).reparsed = createDefaultObject user := by
  cases user with
  | Server => rfl
  | Client => rfl

/-- `getData` with the path looked up. -/
theorem exec_getData (hpath : handler.configMap (user, config) = some filePath) :
    exec (handler.getData P config user) fs
      = exec (Prog.tryCatch (readFileJson P filePath) (fun _ => writeDefault P filePath user) >>=
          fun root => objectOrDefault P filePath user root >>= checked user) fs := by
  unfold getData getFilePath
  rw [hpath]
  rfl

/-- An object is checked, and the file stays as it is. -/
theorem exec_getData_of_object (hpath : handler.configMap (user, config) = some filePath)
    {obj : List (String × Json)} (hload : load P fs filePath = some (.object obj)) :
    exec (handler.getData P config user) fs
      = some (if validStructure user obj then .ok obj
          else .thrown (.runtime_error "Invalid configuration structure for user"), fs) := by
  obtain ⟨out, hread, ⟨v, rfl, hv⟩ | ⟨-, hnone⟩⟩ := exec_readFileJson (P := P) filePath fs
  · obtain rfl := Option.some.inj (hv.symm.trans hload)
    rw [exec_getData hpath]
    refine (Prog.run_bind_ok (Prog.run_tryCatch_ok hread)).trans ?_
    show exec (checked user (.object obj)) fs = _
    rw [checked]
    split
    · rfl
    · rfl
  · rw [hnone] at hload
    cases hload

/-- The default goes through the check. -/
theorem exec_checked_default (user : User) (fs : FileSystem) :
    exec (checked user (createDefaultObject user)) fs = some (.ok (defaultFields user), fs) := by
  rw [createDefaultObject, checked, if_pos (validStructure_default user)]
  rfl

/-- Whatever is no object is replaced by the default, or the load throws. -/
theorem exec_getData_of_no_object (hpath : handler.configMap (user, config) = some filePath)
    (hload : ∀ obj, load P fs filePath ≠ some (.object obj)) :
    ∃ out fs₁, exec (handler.getData P config user) fs = some (out, fs₁) ∧
      ((out = .ok (defaultFields user) ∧
          Stored filePath (P.serialize (createDefaultObject user)) fs fs₁) ∨
        ((∃ e, out = .thrown e) ∧ Prepared filePath fs fs₁)) := by
  rw [exec_getData hpath]
  obtain ⟨out, fs₁, hwrite, hresult⟩ := exec_writeDefault (P := P) filePath user fs
  obtain ⟨read, hread, ⟨v, rfl, hv⟩ | ⟨⟨e, rfl⟩, -⟩⟩ := exec_readFileJson (P := P) filePath fs
  · -- it has been read and is of another kind: the second repair
    have hkind : v.is_object = false := by
      cases v with
      | object obj => exact absurd hv (hload obj)
      | _ => rfl
    have hsecond : exec (objectOrDefault P filePath user v >>= checked user) fs
        = exec (writeDefault P filePath user >>= checked user) fs := by
      rw [objectOrDefault, hkind]
      rfl
    rcases hresult with ⟨rfl, hstored⟩ | ⟨⟨e, rfl⟩, hprepared⟩
    · refine ⟨.ok (defaultFields user), fs₁, ?_, .inl ⟨rfl, hstored⟩⟩
      refine (Prog.run_bind_ok (Prog.run_tryCatch_ok hread)).trans (hsecond.trans ?_)
      exact (Prog.run_bind_ok hwrite).trans (exec_checked_default user fs₁)
    · refine ⟨.thrown e, fs₁, ?_, .inr ⟨⟨e, rfl⟩, hprepared⟩⟩
      refine (Prog.run_bind_ok (Prog.run_tryCatch_ok hread)).trans (hsecond.trans ?_)
      exact Prog.run_bind_thrown hwrite
  · -- it has not been read: the first one, and what it leaves is an object
    have hfirst := (Prog.run_tryCatch_thrown (h := fun _ => writeDefault P filePath user) hread).trans
      hwrite
    rcases hresult with ⟨rfl, hstored⟩ | ⟨⟨e, rfl⟩, hprepared⟩
    · refine ⟨.ok (defaultFields user), fs₁, ?_, .inl ⟨rfl, hstored⟩⟩
      exact (Prog.run_bind_ok hfirst).trans (exec_checked_default user fs₁)
    · exact ⟨.thrown e, fs₁, Prog.run_bind_thrown hfirst, .inr ⟨⟨e, rfl⟩, hprepared⟩⟩

/-! ## The two ends of a load -/

/-- No file but the configured one has changed, and no directory but those on the way to it. -/
structure OnlyConfigured (filePath : String) (fs fs₁ : FileSystem) : Prop where
  files : ∀ path, path ≠ filePath → fs₁.files path = fs.files path
  directories : ∀ path, path ∉ onTheWay (parent_path filePath) →
    fs₁.directories path = fs.directories path

theorem Prepared.onlyConfigured (h : Prepared filePath fs fs₁) : OnlyConfigured filePath fs fs₁ where
  files := fun path _ => by rw [h.files]
  directories := h.directories

theorem Stored.onlyConfigured {content : List UInt8} (h : Stored filePath content fs fs₁) :
    OnlyConfigured filePath fs fs₁ where
  files := fun path hpath => by rw [h.files, Function.update_of_ne hpath]
  directories := h.directories

/-- An object is returned: it passes the check, and it is what the file parses to; where the file
can be read, the next load returns it again and writes nothing. Nothing has been written if there
was an object to read. -/
structure Returned (P : Platform) (handler : ConfigurationHandler) (config : Configuration)
    (user : User) (filePath : String) (fs fs₁ : FileSystem) (obj : List (String × Json)) : Prop where
  valid : validStructure user obj = true
  parses : ∃ content, fs₁.files filePath = some content ∧ (P.parse content).error.failed = false ∧
    (P.parse content).value = .object obj
  again : fs₁.readable filePath = true →
    exec (handler.getData P config user) fs₁ = some (.ok obj, fs₁)
  kept : ∀ obj', load P fs filePath = some (.object obj') → fs₁ = fs

/-- The load throws: no file has been opened for writing, and nothing at all has changed if there
was an object to read. -/
structure Rejected (P : Platform) (filePath : String) (fs fs₁ : FileSystem) : Prop where
  files : fs₁.files = fs.files
  written : fs₁.written = fs.written
  kept : ∀ obj, load P fs filePath = some (.object obj) → fs₁ = fs

/-- A load ends in one of the two ways. -/
def Loaded (P : Platform) (handler : ConfigurationHandler) (config : Configuration) (user : User)
    (filePath : String) (fs fs₁ : FileSystem) :
    Outcome ConfigurationError (List (String × Json)) → Prop
  | .ok obj => Returned P handler config user filePath fs fs₁ obj
  | .thrown _ => Rejected P filePath fs fs₁
  | .crashed => False

/-- What a file is that loads as an object. -/
theorem load_eq_some {v : Json} (hload : load P fs filePath = some v) :
    ∃ content, fs.files filePath = some content ∧ (P.parse content).error.failed = false ∧
      (P.parse content).value = v := by
  unfold load FileSystem.content at hload
  by_cases hreadable : fs.readable filePath = true
  · rw [if_pos hreadable] at hload
    cases hfile : fs.files filePath with
    | none => simp [hfile] at hload
    | some content =>
      simp only [hfile] at hload
      by_cases hfailed : (P.parse content).error.failed = true
      · simp [hfailed] at hload
      · rw [if_neg hfailed, Option.some.injEq] at hload
        exact ⟨content, rfl, by simpa using hfailed, hload⟩
  · rw [if_neg hreadable] at hload
    cases hload

/-- A file with the default in it loads as the default. -/
theorem load_default (hround : P.RoundTrips (createDefaultObject user))
    (hstored : Stored filePath (P.serialize (createDefaultObject user)) fs fs₁)
    (hreadable : fs₁.readable filePath = true) :
    load P fs₁ filePath = some (createDefaultObject user) := by
  have hparse : P.parse (P.serialize (createDefaultObject user))
      = ⟨.success, createDefaultObject user⟩ := by
    rw [hround, reparsed_default]
  rw [load, FileSystem.content, if_pos hreadable, hstored.files, Function.update_self]
  simp only [hparse, ErrorCode.failed_success, Bool.false_eq_true, if_false]

/-- **Loading repairs or rejects**: for every state of the files and either user, the load ends, and
either returns an object that the file holds then, or throws; and it touches no other file. -/
theorem getData_repairs_or_rejects (hpath : handler.configMap (user, config) = some filePath)
    (hround : P.RoundTrips (createDefaultObject user)) (fs : FileSystem) :
    ∃ out fs₁, exec (handler.getData P config user) fs = some (out, fs₁) ∧
      Loaded P handler config user filePath fs fs₁ out ∧ OnlyConfigured filePath fs fs₁ := by
  by_cases hobject : ∃ obj, load P fs filePath = some (.object obj)
  · obtain ⟨obj, hload⟩ := hobject
    have hrun := exec_getData_of_object hpath hload
    refine ⟨_, fs, hrun, ?_, (Prepared.refl filePath fs).onlyConfigured⟩
    by_cases hvalid : validStructure user obj = true
    · rw [if_pos hvalid] at hrun ⊢
      exact ⟨hvalid, load_eq_some hload, fun _ => hrun, fun _ _ => rfl⟩
    · rw [if_neg hvalid]
      exact ⟨rfl, rfl, fun _ _ => rfl⟩
  · have hnone : ∀ obj, load P fs filePath ≠ some (.object obj) :=
      fun obj h => hobject ⟨obj, h⟩
    obtain ⟨out, fs₁, hrun, hresult⟩ := exec_getData_of_no_object hpath hnone
    refine ⟨out, fs₁, hrun, ?_⟩
    rcases hresult with ⟨rfl, hstored⟩ | ⟨⟨e, rfl⟩, hprepared⟩
    · have hvalid := validStructure_default user
      refine ⟨⟨hvalid, ?_, fun hreadable => ?_, fun obj h => absurd h (hnone obj)⟩,
        hstored.onlyConfigured⟩
      · refine ⟨_, by rw [hstored.files, Function.update_self], ?_, ?_⟩
        · rw [hround, ErrorCode.failed_success]
        · rw [hround, reparsed_default, createDefaultObject]
      · -- the default is an object that passes
        rw [exec_getData_of_object hpath (load_default hround hstored hreadable), if_pos hvalid]
    · exact ⟨⟨hprepared.files, hprepared.written, fun obj h => absurd h (hnone obj)⟩,
        hprepared.onlyConfigured⟩

/-- The defaults are texts that are read back. -/
theorem roundTrips_default (user : User) : jsonPlatform.RoundTrips (createDefaultObject user) := by
  refine JsonText.roundTrips_plain ?_
  cases user with
  | Server => exact ⟨by decide, ⟨trivial, trivial⟩, by decide, ⟨trivial, trivial⟩, by decide,
      ⟨trivial, trivial⟩, trivial⟩
  | Client =>
    have haddress : JsonText.PlainString "127.0.0.1" := by decide
    exact ⟨by decide, haddress, by decide, trivial, by decide, trivial, trivial⟩

/-- Two empty files, in a directory that is there. -/
def emptyFiles (readable : Bool) : FileSystem where
  files := fun path =>
    if path = "../config/server_connection.json" ∨ path = "../config/client_connection.json" then some []
    else none
  directories := fun path => path = ".." ∨ path = "../config"
  readable := fun _ => readable
  writable := fun _ => true
  creatable := fun _ => false
  written := []

/-- An empty file is repaired. -/
theorem empty_file_repaired :
    ∃ out fs₁, exec (new.getData jsonPlatform .Connection .Server) (emptyFiles true)
        = some (out, fs₁) ∧
      Loaded jsonPlatform new .Connection .Server "../config/server_connection.json"
        (emptyFiles true) fs₁ out ∧
      OnlyConfigured "../config/server_connection.json" (emptyFiles true) fs₁ :=
  getData_repairs_or_rejects rfl (roundTrips_default .Server) (emptyFiles true)

/-- **A file that can only be written** is written by every load. -/
theorem unreadable_written_again :
    ∃ fs₁ fs₂, exec (new.getData jsonPlatform .Connection .Server) (emptyFiles false)
        = some (.ok (defaultFields .Server), fs₁) ∧
      exec (new.getData jsonPlatform .Connection .Server) fs₁
        = some (.ok (defaultFields .Server), fs₂) ∧
      fs₁.written = ["../config/server_connection.json"] ∧
      fs₂.written = ["../config/server_connection.json", "../config/server_connection.json"] := by
  exact ⟨_, _, rfl, rfl, rfl, rfl⟩

end ConfigurationHandler

end NetworkApplication
