import IntScript.Log.Event

namespace IntScript

abbrev Threshold := Option Level

/-- What is left to the subscriber of the events: what a filter from outside admits, and the text that is written for
events. -/
class Subscriber where
  threshold (filter : String) : Threshold
  render (t : Threshold) (events : Array Event) : String

namespace Log

def variableName : String := "SIMPLE_SCRIPT_LOG"

/-- Without a filter from outside, verbose sessions show more. -/
def threshold (fixed? : Option Threshold) (verbose : Bool) : Threshold :=
  fixed?.getD (if verbose then some .debug else some .warn)

end Log

end IntScript
