import EventDeck.Catalog
import EventDeck.Choice
import EventDeck.Command
import EventDeck.Console
import EventDeck.Control
import EventDeck.Decimal.Binary
import EventDeck.Decimal.Floor
import EventDeck.Decimal.Integer
import EventDeck.Decimal.Notation
import EventDeck.Decimal.Numeral
import EventDeck.Decimal.Reader
import EventDeck.Decimal.Shortest
import EventDeck.Deck.Basic
import EventDeck.Deck.Reader
import EventDeck.Deck.Shape
import EventDeck.Deck.Validation
import EventDeck.Diagnostics
import EventDeck.Expr.Check
import EventDeck.Expr.Error
import EventDeck.Expr.Name
import EventDeck.Expr.Parser
import EventDeck.Expr.RandomCall
import EventDeck.Expr.Statement
import EventDeck.Expr.Token
import EventDeck.Expr.Value
import EventDeck.Fault
import EventDeck.Game.Basic
import EventDeck.Game.Commands
import EventDeck.Game.Effects
import EventDeck.Game.Evaluation
import EventDeck.Game.Turn
import EventDeck.Generator
import EventDeck.Json.Basic
import EventDeck.Json.Reader
import EventDeck.Main
import EventDeck.Proofs.Bounds
import EventDeck.Proofs.Broadcast
import EventDeck.Proofs.Build
import EventDeck.Proofs.Catalog
import EventDeck.Proofs.Command
import EventDeck.Proofs.Dealing
import EventDeck.Proofs.Decimal.Arithmetic
import EventDeck.Proofs.Decimal.Doubles
import EventDeck.Proofs.Decimal.Form
import EventDeck.Proofs.Decimal.Order
import EventDeck.Proofs.Decimal.Readback
import EventDeck.Proofs.Decimal.Rounding
import EventDeck.Proofs.Declared
import EventDeck.Proofs.Diagnostics
import EventDeck.Proofs.Expr.CallText
import EventDeck.Proofs.Expr.Cells
import EventDeck.Proofs.Expr.Chains
import EventDeck.Proofs.Expr.Chance
import EventDeck.Proofs.Expr.Checked
import EventDeck.Proofs.Expr.Division
import EventDeck.Proofs.Expr.Expanded
import EventDeck.Proofs.Expr.Faces
import EventDeck.Proofs.Expr.Gluing
import EventDeck.Proofs.Expr.Grammar
import EventDeck.Proofs.Expr.Kinds
import EventDeck.Proofs.Expr.Lexemes
import EventDeck.Proofs.Expr.Names
import EventDeck.Proofs.Expr.Nesting
import EventDeck.Proofs.Expr.Numeral
import EventDeck.Proofs.Expr.Pasting
import EventDeck.Proofs.Expr.Probe
import EventDeck.Proofs.Expr.Reading
import EventDeck.Proofs.Expr.Splitting
import EventDeck.Proofs.Expr.Stage
import EventDeck.Proofs.Expr.Tokens
import EventDeck.Proofs.Expr.Tree
import EventDeck.Proofs.Expr.Words
import EventDeck.Proofs.Expr.Written
import EventDeck.Proofs.Game.Accepted
import EventDeck.Proofs.Game.Assigned
import EventDeck.Proofs.Game.Between
import EventDeck.Proofs.Game.Cards
import EventDeck.Proofs.Game.Checked
import EventDeck.Proofs.Game.Commands
import EventDeck.Proofs.Game.Comparisons
import EventDeck.Proofs.Game.Conditions
import EventDeck.Proofs.Game.Course
import EventDeck.Proofs.Game.Drawing
import EventDeck.Proofs.Game.Drawless
import EventDeck.Proofs.Game.Faultless
import EventDeck.Proofs.Game.Floors
import EventDeck.Proofs.Game.Forms
import EventDeck.Proofs.Game.Frames
import EventDeck.Proofs.Game.Kept
import EventDeck.Proofs.Game.Offers
import EventDeck.Proofs.Game.Passed
import EventDeck.Proofs.Game.RandomBounds
import EventDeck.Proofs.Game.Reports
import EventDeck.Proofs.Game.Run
import EventDeck.Proofs.Game.Runs
import EventDeck.Proofs.Game.Selections
import EventDeck.Proofs.Game.Sorting
import EventDeck.Proofs.Game.Treatments
import EventDeck.Proofs.Game.Turns
import EventDeck.Proofs.Game.Written
import EventDeck.Proofs.Moments
import EventDeck.Proofs.Observers
import EventDeck.Proofs.Recall
import EventDeck.Proofs.Reshuffle
import EventDeck.Proofs.Service.Calls
import EventDeck.Proofs.Service.Chained
import EventDeck.Proofs.Service.Creation
import EventDeck.Proofs.Service.Cycles
import EventDeck.Proofs.Service.Foremost
import EventDeck.Proofs.Service.Front
import EventDeck.Proofs.Service.Head
import EventDeck.Proofs.Service.Isolation
import EventDeck.Proofs.Service.Looks
import EventDeck.Proofs.Service.Offers
import EventDeck.Proofs.Service.Passes
import EventDeck.Proofs.Service.Places
import EventDeck.Proofs.Service.Presence
import EventDeck.Proofs.Service.Refusals
import EventDeck.Proofs.Service.Requests
import EventDeck.Proofs.Service.Resolution
import EventDeck.Proofs.Service.Rest
import EventDeck.Proofs.Service.Rounds
import EventDeck.Proofs.Session
import EventDeck.Proofs.Shuffle
import EventDeck.Proofs.Store
import EventDeck.Proofs.Terminal.Entries
import EventDeck.Proofs.Terminal.Plays
import EventDeck.Proofs.Terminal.Tables
import EventDeck.Proofs.Text.Digit
import EventDeck.Proofs.Text.Padded
import EventDeck.Proofs.Values
import EventDeck.Proofs.Warnings
import EventDeck.Request
import EventDeck.Service.Basic
import EventDeck.Service.Http
import EventDeck.Service.Path
import EventDeck.Service.Response
import EventDeck.Session
import EventDeck.Settings
import EventDeck.Shuffle
import EventDeck.Store
import EventDeck.Terminal.Arguments
import EventDeck.Terminal.Entry
import EventDeck.Terminal.Options
import EventDeck.Terminal.Run
import EventDeck.Terminal.Table
import EventDeck.Text.Blank
import EventDeck.Text.Digit
import EventDeck.Text.Percent
import EventDeck.Text.Printable
import EventDeck.Text.Quoted
import EventDeck.Text.Ranges
import EventDeck.Text.Split
import EventDeck.Text.Uppercase
import EventDeck.Text.Utf8
import EventDeck.Text.Word
import EventDeck.Tolerance
import EventDeck.Twister
