import Tang.Main
import Tang.Proofs.Occurrence
import Tang.Proofs.Action
import Tang.Proofs.Callables
import Tang.Proofs.Causes
import Tang.Proofs.Heap.Evaluation
import Tang.Proofs.Machine
import Tang.Proofs.Machine.Stability
import Tang.Proofs.Congruence
import Tang.Proofs.Termination
import Tang.Proofs.Truncation
import Tang.Proofs.Growth
import Tang.Proofs.CallLimit
import Tang.Proofs.Truncation.Sessions
import Tang.Proofs.Grammar
import Tang.Proofs.Grammar.Rows
import Tang.Proofs.Grammar.Reading
import Tang.Proofs.Grammar.Soundness
import Tang.Proofs.Grammar.Completeness
import Tang.Proofs.Grammar.Recognition
import Tang.Proofs.Written.Readable
import Tang.Proofs.Written.Derivation
import Tang.Proofs.Written.Pieces
import Tang.Proofs.Written.Scanning
import Tang.Proofs.Heap.Session
import Tang.Proofs.Units
import Tang.Proofs.Written.RoundTrip
import Tang.Proofs.Heap.Frame
import Tang.Proofs.Joined.Scanning
import Tang.Proofs.Lockstep
import Tang.Proofs.Joined
import Tang.Proofs.Unwinding
import Tang.Proofs.Course
import Tang.Proofs.Course.Adequacy
import Tang.Proofs.Course.Admission
import Tang.Proofs.Course.Invariant
import Tang.Proofs.ByName
import Tang.Proofs.Heap.WellFormed
import Tang.Proofs.Diagnostics
import Tang.Proofs.Arithmetic
import Tang.Proofs.Equality
import Tang.Proofs.Course.Serials
import Tang.Proofs.Equality.Sessions
import Tang.Proofs.Oblivious
import Tang.Proofs.Stream
import Tang.Proofs.Tiling.Lexemes
import Tang.Proofs.Tiling
import Tang.Proofs.Maps
import Tang.Proofs.Maps.Collisions
import Tang.Proofs.Joined.Failures
import Tang.Proofs.Spelling
import Tang.Proofs.Templates
import Tang.Proofs.Heap.Writing
import Tang.Proofs.Progress.Loops
import Tang.Proofs.Progress
import Tang.Proofs.Nesting
import Tang.Proofs.Tiling.Scanning
import Tang.Proofs.LineEnds
import Tang.Proofs.Counters
import Tang.Proofs.Counters.Calls
import Tang.Proofs.Counters.Parsing
import Tang.Proofs.Counters.Balance
