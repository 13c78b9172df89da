import IntScript.Shell.Program

namespace IntScript.Console

def emit (o : Output) : IO Unit := do
  let output ← IO.getStdout
  let messages ← IO.getStderr
  output.putStr o.results
  output.flush
  messages.putStr o.messages
  messages.flush

def readError : IO.Error → ReadError
  | .inappropriateType _ 21 _ => .directory
  | .inappropriateType _ _ _ => .notDirectory
  | .invalidArgument _ 22 _ => .nulInName
  | .invalidArgument _ _ _ => .nameTooLong
  | _ => .missing

def readBytes (name : String) : IO (Except ReadError ByteArray) := do
  try return .ok (← IO.FS.readBinFile name)
  catch e => return .error (readError e)

def readFiles (names : List String) : IO Files := do
  return ⟨← names.mapM fun name => return (name, ← readBytes name)⟩

partial def readAll (input : IO.FS.Stream) (bytes : ByteArray) : IO ByteArray := do
  let more ← input.read 65536
  if more.isEmpty then return bytes else readAll input (bytes ++ more)

partial def readLine (input : IO.FS.Stream) (bytes : ByteArray) : IO ByteArray := do
  let next ← input.read 1
  if next.isEmpty then return bytes
  let bytes := bytes ++ next
  if next[0]? = some 10 then return bytes else readLine input bytes

def filesFor (sh : Shell) (input : Input) : IO Files :=
  match sh.pending?, input with
  | none, .line text =>
      match CommandLine.parse? text with
      | some (.known .load (some name)) => readFiles [name]
      | _ => readFiles []
  | _, _ => readFiles []

partial def serve (prompts : Bool) (input : IO.FS.Stream) (sh : Shell) : IO Shell := do
  if sh.running then
    if prompts then emit (.print sh.prompt)
    let bytes ← readLine input .empty
    let next := if bytes.isEmpty then .interrupted .ended else .ofLine bytes
    let (sh, output) := Shell.step (← filesFor sh next) sh next
    emit output
    serve prompts input sh
  else return sh

def saveHistory (place : String) (h : History) : IO Unit := do
  if let some text := LineEditor.content? h then
    try IO.FS.writeFile place text
    catch _ => emit (.tell Setting.saveError)

def run (arguments : List String) : IO Unit := do
  let input ← IO.getStdin
  let options := Options.parse arguments
  let fixed? := (← IO.getEnv Log.variableName).map Subscriber.threshold
  let files ← readFiles options.files
  let script ← if options.readsInput then readAll input .empty else pure .empty
  let e := options.apply (Log.threshold fixed? options.verbose) files script .start
  emit e.output
  if e.promptOpen then
    let (place, warning) := History.place (← IO.getEnv "HOME")
    emit (.tell warning)
    let history := LineEditor.restore (← readBytes place).toOption
    emit (.print Shell.welcome)
    let prompts := LineEditor.showsPrompts (← input.isTty) (← IO.getEnv "TERM")
    let sh ← serve prompts input (.start e.session history fixed?)
    saveHistory place sh.history

end IntScript.Console

def main (arguments : List String) : IO Unit := IntScript.Console.run arguments
