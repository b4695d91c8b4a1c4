import TextGrammar.Main
import TextGrammar.Slice.Workspace
import TextGrammar.Proofs.Parser.Tracking
import TextGrammar.Proofs.Recognizer.Lookahead
import TextGrammar.Cursor.Session
import TextGrammar.Proofs.Recognizer.Offsets
import TextGrammar.Proofs.Parser.Translation
import TextGrammar.Proofs.PluralRule.Agreement
import TextGrammar.Proofs.Cursor.Placement
import TextGrammar.Proofs.Cursor.Safety
import TextGrammar.Proofs.Recognizer.Window
import TextGrammar.Proofs.Parser.Consumption
import TextGrammar.Proofs.Parser.Locality
import TextGrammar.Proofs.CharClass
import TextGrammar.Proofs.Recognizer.Runs
import TextGrammar.Proofs.Parser.Reading
import TextGrammar.Proofs.Parser.Values
import TextGrammar.Proofs.PluralRule.Grammar
import TextGrammar.Proofs.Recognizer.Language
import TextGrammar.Proofs.Numeral
import TextGrammar.Proofs.PluralRule.Tree
import TextGrammar.Proofs.PluralRule.Writing
import TextGrammar.Proofs.PluralRule.Reading
import TextGrammar.Proofs.PluralRule.Derivation
import TextGrammar.Proofs.PluralRule.RoundTrip
import TextGrammar.Proofs.Escape.Characters
import TextGrammar.Proofs.Template.Layout
import TextGrammar.Proofs.Text.Balance
import TextGrammar.Proofs.Cursor.Reading
import TextGrammar.Proofs.Template.Scanning
import TextGrammar.Proofs.Template.Stages
import TextGrammar.Proofs.Cursor.Effects
import TextGrammar.Proofs.Recognizer.Nullability
import TextGrammar.Proofs.Cursor.Matching
import TextGrammar.Proofs.Cursor.Groups
import TextGrammar.Proofs.Node.Printing
import TextGrammar.Proofs.PluralRule.Reporting
import TextGrammar.Proofs.Recognizer.Exhaustion
import TextGrammar.Proofs.Recognizer.Repetition
import TextGrammar.Proofs.Recognizer.Equivalence
import TextGrammar.Proofs.Parser.Repetition
import TextGrammar.Proofs.Escape.RoundTrip
import TextGrammar.Proofs.Escape.Shape
import TextGrammar.Proofs.Text.Bytes
import TextGrammar.Proofs.Cursor.Comparing
import TextGrammar.Proofs.Cursor.Sharing
import TextGrammar.Proofs.Cursor.InPlace
import TextGrammar.Proofs.Cursor.Refusals
import TextGrammar.Proofs.Template.Names
import TextGrammar.Proofs.Escape.Triplets
import TextGrammar.Proofs.Template.Values
import TextGrammar.Proofs.Cursor.Footprint
import TextGrammar.Proofs.Position
import TextGrammar.Proofs.Recognizer.Numerals
import TextGrammar.Proofs.Node.Parts
import TextGrammar.Proofs.Node.Lines
import TextGrammar.Proofs.Node.Alike
import TextGrammar.Proofs.Node.Unambiguous
import TextGrammar.Proofs.PluralRule.Printing
import TextGrammar.Proofs.Node.Content
import TextGrammar.Proofs.Recognizer.TextEnd
import TextGrammar.Proofs.Cursor.Advancing
import TextGrammar.Proofs.Slice.Reading
import TextGrammar.Proofs.Slice.Splitting
import TextGrammar.Proofs.Slice.Workspace
