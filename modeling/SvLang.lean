import SvLang.Main
import SvLang.Proofs.Analysis.Acceptance
import SvLang.Proofs.Analysis.Repeated
import SvLang.Proofs.Calculator
import SvLang.Proofs.Grammar.Height
import SvLang.Proofs.Grammar.Limit
import SvLang.Proofs.Grammar.Verdict
import SvLang.Proofs.Java.Copies
import SvLang.Proofs.Lexing.Printing
import SvLang.Proofs.Grammar.Alike
import SvLang.Proofs.Reformatted
import SvLang.Proofs.Analysis.Session
import SvLang.Proofs.Analysis.Order
import SvLang.Proofs.Analysis.PassedOver
import SvLang.Proofs.Grammar.Closing
import SvLang.Proofs.Joined
import SvLang.Proofs.Analysis.Folding.Outcome
import SvLang.Proofs.Java.Literal
import SvLang.Proofs.Java.Written
import SvLang.Proofs.Java.Emitted
import SvLang.Proofs.Command.Compile
import SvLang.Proofs.Java.Reread
import SvLang.Proofs.Lexing.ByteRuns
import SvLang.Proofs.Lexing.Defect
import SvLang.Proofs.Grammar.Unexpected
import SvLang.Proofs.Grammar.Increment
import SvLang.Proofs.Command.Listing
import SvLang.Proofs.Grammar.Unlimited
