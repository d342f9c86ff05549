import StoredProc.CommandLine
import StoredProc.Main
import StoredProc.Proofs.Program.Reading
import StoredProc.Proofs.Python.Replay
import StoredProc.Proofs.Run.Law
import StoredProc.Proofs.Token.Tokenize
import StoredProc.Transpile.File
import StoredProc.Proofs.Grammar.Lines
import StoredProc.Proofs.Program.Invariant
import StoredProc.Proofs.Program.Lines
import StoredProc.Proofs.Scanner.Request
import StoredProc.Proofs.Program.Safety
import StoredProc.Proofs.Grammar.Append
import StoredProc.Proofs.Transpile.Play
import StoredProc.Proofs.Transpile.Concat
import StoredProc.Proofs.Grammar.Printer
import StoredProc.Proofs.Program.Image
import StoredProc.Proofs.Transpile.Reference
import StoredProc.Proofs.Disk
import StoredProc.Proofs.Scanner.Lockstep
import StoredProc.Proofs.Transpile.File
import StoredProc.Proofs.Program.Lockstep
import StoredProc.Proofs.Program.Final
import StoredProc.Proofs.Program.Pieces
import StoredProc.Proofs.Program.Respelling
import StoredProc.Proofs.Transpile.Respelling
import StoredProc.Proofs.Scanner.Mending
import StoredProc.Proofs.Program.Mending
import StoredProc.Proofs.Scanner.Position
import StoredProc.Proofs.Scanner.Lookahead
import StoredProc.Proofs.Program.Lookahead
import StoredProc.Proofs.Program.Plain
import StoredProc.Proofs.Program.Trace
import StoredProc.Proofs.Transpile.Trace
import StoredProc.Proofs.Transpile.Truncation
import StoredProc.Proofs.Text.Breaks
import StoredProc.Proofs.Text.Quoted
import StoredProc.Proofs.Statement.Summary
import StoredProc.Proofs.Program.Progress
import StoredProc.Proofs.Scanner.Boundary
import StoredProc.Effect
