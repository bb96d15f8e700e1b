import DeskCalculator.Main
import DeskCalculator.Pad
import DeskCalculator.Proofs.Binary64.Remainder
import DeskCalculator.Proofs.Binary64.SpecialValues
import DeskCalculator.Proofs.Evaluation.FlatChain
import DeskCalculator.Proofs.Evaluation.Nesting
import DeskCalculator.Proofs.Evaluation.Percent
import DeskCalculator.Proofs.Evaluation.PostOrder
import DeskCalculator.Proofs.Evaluation.RoundTrip
import DeskCalculator.Proofs.Evaluation.Shown
import DeskCalculator.Proofs.Evaluation.Substitution
import DeskCalculator.Proofs.Grammar.Diagnosis
import DeskCalculator.Proofs.Grammar.Limits
import DeskCalculator.Proofs.Grammar.Unfinished
import DeskCalculator.Proofs.History.Recording
import DeskCalculator.Proofs.Settings.Saving
import DeskCalculator.Proofs.Token.Scanning
import DeskCalculator.Proofs.Window.Editing
import DeskCalculator.Proofs.Window.Holding
import DeskCalculator.Proofs.Window.Limited
import DeskCalculator.Proofs.Window.Replaying
import DeskCalculator.Proofs.Window.Submission
import DeskCalculator.Proofs.Window.Upkeep
