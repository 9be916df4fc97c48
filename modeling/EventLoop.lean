import EventLoop.Text.Blank
import EventLoop.Text.Letter
import EventLoop.Text.Quoted
import EventLoop.Text.Lines
import EventLoop.Number.Numeral
import EventLoop.Language.Lexing
import EventLoop.Language.Parsing
import EventLoop.Semantics.Evaluation
import EventLoop.Json.Reading
import EventLoop.Json.Writing
import EventLoop.Timeline.Document
import EventLoop.Timeline.Report
import EventLoop.Loop.Generation
import EventLoop.Main
import EventLoop.Proofs.Number.Whole
import EventLoop.Proofs.Json.Rereading
import EventLoop.Proofs.Language.Holes
import EventLoop.Proofs.Language.LineBreaks
import EventLoop.Proofs.Language.Printing
import EventLoop.Proofs.Language.Relexing
import EventLoop.Proofs.Language.Pieces
import EventLoop.Proofs.Language.Reading
import EventLoop.Proofs.Language.RoundTrip
import EventLoop.Proofs.Language.Rules
import EventLoop.Proofs.Language.Accepted
import EventLoop.Proofs.Language.Sources
import EventLoop.Proofs.Language.Nesting
import EventLoop.Proofs.Language.Height
import EventLoop.Proofs.Language.Cursor
import EventLoop.Proofs.Language.Following
import EventLoop.Proofs.Language.Safety
import EventLoop.Proofs.Evaluation.Running
import EventLoop.Proofs.Evaluation.Path
import EventLoop.Proofs.Evaluation.Tracking
import EventLoop.Proofs.Evaluation.Congruence
import EventLoop.Proofs.Evaluation.Simulation
import EventLoop.Proofs.Evaluation.Steady
import EventLoop.Proofs.Evaluation.Budget
import EventLoop.Proofs.Evaluation.ControlFlow
import EventLoop.Proofs.Evaluation.Compound
import EventLoop.Proofs.Queue.Arena
import EventLoop.Proofs.Queue.Timers
import EventLoop.Proofs.Promise.Settlement
import EventLoop.Proofs.Promise.Visiting
import EventLoop.Proofs.Promise.Closures
import EventLoop.Proofs.Promise.Settlers
import EventLoop.Proofs.Promise.Interpreter
import EventLoop.Proofs.Promise.Flattening
import EventLoop.Proofs.Promise.Handlers
import EventLoop.Proofs.Promise.Ownership
import EventLoop.Proofs.Promise.Continuations
import EventLoop.Proofs.Promise.Trail
import EventLoop.Proofs.Timeline.Moves
import EventLoop.Proofs.Timeline.Tally
import EventLoop.Proofs.Timeline.Summary
import EventLoop.Proofs.Timeline.Rereading
import EventLoop.Proofs.Loop.Steps
import EventLoop.Proofs.Loop.Keys
import EventLoop.Proofs.Loop.Reached
import EventLoop.Proofs.Loop.Course
import EventLoop.Proofs.Loop.Recorded
import EventLoop.Proofs.Loop.Accounting
import EventLoop.Proofs.Loop.Plain
import EventLoop.Proofs.Loop.Mirrors
import EventLoop.Proofs.Loop.Refinement
import EventLoop.Proofs.Loop.Balance
import EventLoop.Proofs.Loop.Invariant
import EventLoop.Proofs.Loop.Recording
import EventLoop.Proofs.Loop.StackDiscipline
import EventLoop.Proofs.Loop.Failure
import EventLoop.Proofs.Loop.Marks
import EventLoop.Proofs.Loop.Truncation
import EventLoop.Proofs.Loop.Termination
import EventLoop.Proofs.Loop.Books
import EventLoop.Proofs.Loop.Conservation
import EventLoop.Proofs.Loop.Paired
import EventLoop.Proofs.Loop.Loosening
import EventLoop.Proofs.Loop.Highlighting
import EventLoop.Proofs.Loop.Completion
import EventLoop.Proofs.Flat.Script
import EventLoop.Proofs.Flat.Evaluation
import EventLoop.Proofs.Flat.Agenda
import EventLoop.Proofs.Flat.Output
import EventLoop.Proofs.Evaluation.Hoisting
import EventLoop.Proofs.Language.Naming
import EventLoop.Proofs.Evaluation.Watching
import EventLoop.Proofs.Evaluation.Origins
import EventLoop.Proofs.Evaluation.Scoping
import EventLoop.Proofs.Evaluation.Lives
import EventLoop.Proofs.Evaluation.Bindings
import EventLoop.Proofs.Evaluation.Rounds
import EventLoop.Proofs.Loop.Locating
import EventLoop.Proofs.Loop.Places
import EventLoop.Proofs.Evaluation.OwnName
import EventLoop.Proofs.Number.Magnitude
import EventLoop.Proofs.Number.Printed
import EventLoop.Proofs.Evaluation.Provenance
import EventLoop.Proofs.Loop.Wording
import EventLoop.Proofs.Language.Grammar
import EventLoop.Proofs.Language.Spelling
import EventLoop.Proofs.Queue.Registrations
import EventLoop.Proofs.Language.Headers
