import ContrastLint.Files.Workspace
import ContrastLint.Main
import ContrastLint.Proofs.Comments
import ContrastLint.Proofs.Verdict
import ContrastLint.Proofs.LintAgreement
import ContrastLint.Proofs.Assignments
import ContrastLint.Proofs.Cursor
import ContrastLint.Proofs.Pieces
import ContrastLint.Proofs.Yields
import ContrastLint.Proofs.Gaps
import ContrastLint.Proofs.AtRules
import ContrastLint.Proofs.Joining
import ContrastLint.Proofs.Written
import ContrastLint.Proofs.RoundTrip
import ContrastLint.Proofs.Locating
import ContrastLint.Proofs.Seams
import ContrastLint.Proofs.Faults
import ContrastLint.Proofs.Places
import ContrastLint.Proofs.Composition
import ContrastLint.Proofs.Concealing
import ContrastLint.Proofs.Noninterference
import ContrastLint.Proofs.Unclosed
import ContrastLint.Proofs.Pruning
import ContrastLint.Proofs.Repruning
import ContrastLint.Proofs.Scanning
import ContrastLint.Proofs.Verdicts
import ContrastLint.Proofs.Bytes
import ContrastLint.Proofs.Bytewise
import ContrastLint.Proofs.Strides
import ContrastLint.Proofs.Searches
import ContrastLint.Proofs.Stripping
import ContrastLint.Proofs.Readers
import ContrastLint.Proofs.BytewiseParts
import ContrastLint.Proofs.Rounds
import ContrastLint.Proofs.BytewiseParse
import ContrastLint.Proofs.Lookups
import ContrastLint.Proofs.OneFile
import ContrastLint.Proofs.Forms
import ContrastLint.Proofs.Blanking
import ContrastLint.Proofs.Order
import ContrastLint.Proofs.Evaluation
import ContrastLint.Proofs.Thresholds
import ContrastLint.Proofs.Beginnings
import ContrastLint.Proofs.Lockstep
import ContrastLint.Proofs.PaddedComments
import ContrastLint.Proofs.PaddedNodes
import ContrastLint.Proofs.LineEnds
import ContrastLint.Proofs.ColorDeclarations
import ContrastLint.Proofs.Entries
import ContrastLint.Proofs.PaletteAgreement
import ContrastLint.Proofs.HexDigits
import ContrastLint.Proofs.LiteralColors
import ContrastLint.Proofs.Complaints
import ContrastLint.Proofs.Regions
import ContrastLint.Proofs.Traces
import ContrastLint.Proofs.Nesting
import ContrastLint.Proofs.Declarables
