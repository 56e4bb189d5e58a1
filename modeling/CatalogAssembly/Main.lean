import CatalogAssembly.CommandLine.Consulted

/-!
# The program

The outer layer looks up what a run consults, lets it run, and writes what comes
of it: the log to its place, the entity to the standard output, and a failure to
the error output with its causes.
-/
namespace CatalogAssembly.CommandLine

/-- Codes of errors come with either sign. -/
def faultOf (path : String) (e : IO.Error) : FileFault :=
  match pathFault? path, e with
  | some fault, _ => fault
  | none, .inappropriateType _ code _ =>
    if code = 21 || code = 0 - 21 then .isADirectory else .notADirectory
  | none, .invalidArgument _ _ _ => .nameTooLong
  | none, .noFileOrDirectory _ _ _ => .missing
  | none, .permissionDenied _ code details => .other (details ++ " (os error " ++ toString code ++ ")")
  | none, e => .other (toString e)

/-- What is at a path; what can be resolved is there even when it cannot be read. Paths that are
no texts cannot be looked up. -/
def lookUp (path : FilePath) : IO (Except FileFault FileEntry) := do
  let some path := path.text? | return .error .missing
  try
    return .ok (.file (← IO.FS.readBinFile path))
  catch e =>
    match faultOf path e with
    | .isADirectory => return .ok .directory
    | .other text =>
      try
        let _ ← IO.FS.realPath path
        return .ok (.unreadable (.other text))
      catch _ => return .error (.other text)
    | fault => return .error fault

/-- What is at a path after bytes were appended to a file of that name. -/
def grown (find : FilePath → Except FileFault FileEntry) (file : String) (bytes : ByteArray)
    (path : FilePath) : Except FileFault FileEntry :=
  match find path with
  | .ok (.file content) =>
    .ok (.file (if path = .ofText file then content ++ bytes else content))
  | found => found

def lookUpAll (h : Host) (paths : List FilePath) : IO Host := do
  let found ← paths.mapM fun path => return (path, ← lookUp path)
  let find := fun path => (found.lookup path).getD (h.find path)
  return { h with find := find, findAfter := grown find }

def openFault? (path : String) : IO (Option FileFault) := do
  try
    let _ ← IO.FS.Handle.mk path .append
    return none
  catch e => return some (faultOf path e)

def lookUpLog (h : Host) (path : Option String) : IO Host := do
  match path with
  | none => return h
  | some path =>
    let fault ← openFault? path
    return { h with appendFault? := fun _ => fault }

/-- A host that knows everything the run consults. -/
def gather (a : Arguments) : IO Host := do
  let env ← consultedVariables.mapM fun name => return (name, ← IO.getEnv name)
  let bare : Host :=
    { environment := fun name => (env.lookup name).join.map String.toUTF8
      accountHome := none
      find := fun _ => .error .missing
      findAfter := fun _ _ _ => .error .missing
      appendFault? := fun _ => none
      input := .empty }
  let h ← lookUpAll bare (settingsPaths bare a)
  let h ← lookUpLog h (logPath? h a)
  let h ← lookUpAll h (sessionPaths h a)
  if readsInput h a then return { h with input := ← (← IO.getStdin).readBinToEnd }
  else return h

def errorText : ErrorChain → String
  | [] => ""
  | [outer] => "Error: " ++ outer
  | [outer, cause] => "Error: " ++ outer ++ "\n\nCaused by:\n    " ++ cause
  | outer :: causes =>
    let numbered := causes.zipIdx.map fun (cause, i) => "    " ++ toString i ++ ": " ++ cause
    String.intercalate "\n" (("Error: " ++ outer ++ "\n\nCaused by:") :: numbered)

def writeOutcome (o : Outcome) : IO Unit := do
  match o.logPlace with
  | .errorOutput => o.log.forM (IO.eprintln ·)
  | .file path =>
    let file ← IO.FS.Handle.mk path .append
    o.log.forM (file.putStrLn ·)
  IO.print o.output
  match o.failure with
  | none => return
  | some (.reported chain) => IO.eprintln (errorText chain)
  | some .usage => IO.eprint helpText

/-- Runs with these arguments and gives the exit code. -/
def runProgram (arguments : List String) : IO UInt32 := do
  let o ← match Request.ofArguments arguments with
    | .assemble a => do
      let h ← gather a
      pure (runArguments h a)
    | .version => pure (.ofText versionText)
    | .help => pure (.ofText helpText)
    | .misuse => pure (.ofFailure .usage)
  writeOutcome o
  return o.exitCode.toUInt32

end CatalogAssembly.CommandLine

def main (arguments : List String) : IO UInt32 :=
  CatalogAssembly.CommandLine.runProgram arguments
