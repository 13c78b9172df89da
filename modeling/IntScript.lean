import IntScript.Main
import IntScript.Proofs.Command.Name
import IntScript.Proofs.Command.Variable
import IntScript.Proofs.Evaluation.Depth
import IntScript.Proofs.Evaluation.Exact
import IntScript.Proofs.Grammar.Call
import IntScript.Proofs.Grammar.Listing
import IntScript.Proofs.Grammar.Parenthesized
import IntScript.Proofs.Session.Calculation
import IntScript.Proofs.Session.Evaluation
import IntScript.Proofs.Session.Names
import IntScript.Proofs.Session.Prediction
import IntScript.Proofs.Shell.Complete
import IntScript.Proofs.Shell.Loop
import IntScript.Proofs.Shell.Script
import IntScript.Proofs.Token.Spaced
import IntScript.Proofs.Tree.Truncation
