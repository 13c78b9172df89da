import IntScript.Editor.Basic

namespace IntScript.History

def fileName : String := "simple_script_hist"

def place (home? : Option String) : String × String :=
  match home? with
  | some home => (home ++ "/.cache/" ++ fileName, "")
  | none =>
      ("/tmp/" ++ fileName,
        "warning: failed to read env variable HOME (environment variable not found), " ++
          "using fallback /tmp.\n")

end IntScript.History
