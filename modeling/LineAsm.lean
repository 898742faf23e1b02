import LineAsm.Main
import LineAsm.Proofs.Attribution
import LineAsm.Proofs.Brackets
import LineAsm.Proofs.Branches
import LineAsm.Proofs.Calls
import LineAsm.Proofs.Columns
import LineAsm.Proofs.Combining
import LineAsm.Proofs.Continuation
import LineAsm.Proofs.CountMachine
import LineAsm.Proofs.Counted
import LineAsm.Proofs.Coverage
import LineAsm.Proofs.Decoding
import LineAsm.Proofs.Definitions
import LineAsm.Proofs.Encoding
import LineAsm.Proofs.Expansions
import LineAsm.Proofs.Extents
import LineAsm.Proofs.Files
import LineAsm.Proofs.Flow
import LineAsm.Proofs.Functions
import LineAsm.Proofs.Histories
import LineAsm.Proofs.Indentation
import LineAsm.Proofs.Jumps
import LineAsm.Proofs.Layout
import LineAsm.Proofs.Lexemes
import LineAsm.Proofs.Lexing
import LineAsm.Proofs.LongestMatch
import LineAsm.Proofs.Machine
import LineAsm.Proofs.Margins
import LineAsm.Proofs.Naming
import LineAsm.Proofs.Numerals
import LineAsm.Proofs.Operands
import LineAsm.Proofs.Options
import LineAsm.Proofs.Ports
import LineAsm.Proofs.Preservation
import LineAsm.Proofs.Printing
import LineAsm.Proofs.Priority
import LineAsm.Proofs.Programs
import LineAsm.Proofs.Pruning
import LineAsm.Proofs.Readback
import LineAsm.Proofs.Reading
import LineAsm.Proofs.Rejection
import LineAsm.Proofs.Respacing
import LineAsm.Proofs.Room
import LineAsm.Proofs.Rounds
import LineAsm.Proofs.Sayings
import LineAsm.Proofs.Shapes
import LineAsm.Proofs.Simulation
import LineAsm.Proofs.Sinks
import LineAsm.Proofs.Sources
import LineAsm.Proofs.Sparing
import LineAsm.Proofs.Steps
import LineAsm.Proofs.Structured
import LineAsm.Proofs.Symbols
import LineAsm.Proofs.Transcript
import LineAsm.Proofs.Uniqueness
import LineAsm.Proofs.Widths
import LineAsm.Proofs.Words
import LineAsm.Proofs.Written
import LineAsm.Proofs.Yields
