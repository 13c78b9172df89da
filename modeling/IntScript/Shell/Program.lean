import IntScript.Editor.Standard
import IntScript.Log.Format
import IntScript.Shell.Setting

namespace IntScript.Setting

def run (s : Setting) : Ending :=
  let options := Options.parse s.arguments
  let fixed? := s.filter?.map Subscriber.threshold
  let e := options.apply (Log.threshold fixed? options.verbose) s.files s.input .start
  if e.promptOpen then
    let shell := Shell.start e.session (LineEditor.restore s.cache.content?) fixed?
    let (shell, output) := shell.run s.files s.prompts (inputs s.input)
    let last := s.keep shell.history
    ⟨e.output ++ .print Shell.welcome ++ output ++ last.output, last.history?⟩
  else ⟨e.output, s.cache.content?⟩

end IntScript.Setting
