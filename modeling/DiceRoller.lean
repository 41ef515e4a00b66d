import DiceRoller.Help
import DiceRoller.Journal.Record
import DiceRoller.Journal.Registry
import DiceRoller.Proofs.Calendar.Stamps
import DiceRoller.Proofs.Expression.Acceptance
import DiceRoller.Proofs.Expression.LookAlikes
import DiceRoller.Proofs.Expression.Repeating
import DiceRoller.Proofs.Expression.Writing
import DiceRoller.Proofs.Journal.Lines
import DiceRoller.Proofs.Journal.Registry
import DiceRoller.Proofs.Pool.BestCut
import DiceRoller.Proofs.Pool.Budget
import DiceRoller.Proofs.Pool.ChainSums
import DiceRoller.Proofs.Pool.Counterparts
import DiceRoller.Proofs.Pool.Easing
import DiceRoller.Proofs.Pool.Expanding
import DiceRoller.Proofs.Pool.Making
import DiceRoller.Proofs.Pool.Raising
import DiceRoller.Proofs.Report.Decoding
import DiceRoller.Proofs.Report.LongNumbers
import DiceRoller.Proofs.Report.Merging
import DiceRoller.Proofs.Report.Retelling
import DiceRoller.Proofs.Request.BareLabels
import DiceRoller.Proofs.Request.Budget
import DiceRoller.Proofs.Request.Completeness
import DiceRoller.Proofs.Request.Composition
import DiceRoller.Proofs.Request.Journal
import DiceRoller.Proofs.Request.LabelEnds
import DiceRoller.Proofs.Request.LogLines
import DiceRoller.Proofs.Request.Rendering
import DiceRoller.Proofs.Request.Replaying
import DiceRoller.Proofs.Request.Shares
import DiceRoller.Proofs.Request.Soundness
import DiceRoller.Proofs.Roll.Scripted
import DiceRoller.Proofs.Settings.Reading
import DiceRoller.Report.Answer
import DiceRoller.Settings.Reading
import DiceRoller.Source.Script
