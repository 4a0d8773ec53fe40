import ShellExpansion.Environment
import ShellExpansion.Command.Run
import ShellExpansion.Main
import ShellExpansion.Proofs.Template.Pieces
import ShellExpansion.Proofs.Template.Grammar
import ShellExpansion.Proofs.Template.Steps
import ShellExpansion.Proofs.Template.Braces
import ShellExpansion.Proofs.Template.Operators
import ShellExpansion.Proofs.Template.Completeness
import ShellExpansion.Proofs.Template.Recognition
import ShellExpansion.Proofs.Template.Source
import ShellExpansion.Proofs.Template.WellFormed
import ShellExpansion.Proofs.Glob.Matching
import ShellExpansion.Proofs.Glob.Brackets
import ShellExpansion.Proofs.Glob.PlainBrackets
import ShellExpansion.Proofs.Glob.Reading
import ShellExpansion.Proofs.Glob.RegexText
import ShellExpansion.Proofs.Glob.GivingUp
import ShellExpansion.Proofs.Glob.Correctness
import ShellExpansion.Proofs.Glob.Validity
import ShellExpansion.Proofs.Glob.Membership
import ShellExpansion.Proofs.Expansion.Failure
import ShellExpansion.Proofs.Expansion.Callers
import ShellExpansion.Proofs.Expansion.Consultation
import ShellExpansion.Proofs.Expansion.Lookups
import ShellExpansion.Proofs.Expansion.Leniency
import ShellExpansion.Proofs.Template.Nesting
import ShellExpansion.Proofs.Expansion.Concatenation
import ShellExpansion.Proofs.Template.Rendering
import ShellExpansion.Proofs.Template.Limit
import ShellExpansion.Proofs.Command.Lines
import ShellExpansion.Proofs.Glob.Longest
import ShellExpansion.Proofs.Value.Replacement
import ShellExpansion.Proofs.Value.Everywhere
import ShellExpansion.Proofs.Value.Trimming
import ShellExpansion.Proofs.Expansion.Alone
import ShellExpansion.Proofs.Expansion.ReplaceByNothing
import ShellExpansion.Proofs.Glob.Escaping
import ShellExpansion.Proofs.Expansion.EscapedPatterns
import ShellExpansion.Proofs.Expansion.EscapedSlots
import ShellExpansion.Proofs.Template.DollarRuns
import ShellExpansion.Proofs.Expansion.Assignments
import ShellExpansion.Proofs.Expansion.Required
import ShellExpansion.Proofs.Text.Integer
import ShellExpansion.Proofs.Value.Slicing
import ShellExpansion.Proofs.Expansion.Slices
import ShellExpansion.Proofs.Command.PlainText
import ShellExpansion.Template.Scanner
import ShellExpansion.Template.Descent
import ShellExpansion.Proofs.Template.Scanning
import ShellExpansion.Proofs.Template.Descent
import ShellExpansion.Proofs.Command.Options
import ShellExpansion.Proofs.Command.Settings
