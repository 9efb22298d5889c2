import SexpLayout.Arity
import SexpLayout.Buffer.Basic
import SexpLayout.Buffer.Command
import SexpLayout.CommandLine.Options
import SexpLayout.CommandLine.Run
import SexpLayout.Config.Basic
import SexpLayout.Config.Error
import SexpLayout.Config.Json
import SexpLayout.Files.Format
import SexpLayout.Files.Path
import SexpLayout.Files.Pattern
import SexpLayout.Files.Tree
import SexpLayout.Format.Form
import SexpLayout.Format.Indent
import SexpLayout.Format.Traced
import SexpLayout.Forms.Basic
import SexpLayout.Forms.Reader
import SexpLayout.Json.Basic
import SexpLayout.Json.Letters
import SexpLayout.Json.Printer
import SexpLayout.Json.Reader
import SexpLayout.Layout.Basic
import SexpLayout.Layout.Gap
import SexpLayout.Layout.LaidText
import SexpLayout.Main
import SexpLayout.Number.Binary64
import SexpLayout.Number.Shortest
import SexpLayout.SkipTable
import SexpLayout.Text.Basic
import SexpLayout.Text.Blank
import SexpLayout.Text.Numeral
import SexpLayout.Text.Printable
import SexpLayout.Text.Quoted
import SexpLayout.Text.Slice
import SexpLayout.Token.Basic
import SexpLayout.Token.Lexer
import SexpLayout.Proofs.Token.Follow
import SexpLayout.Proofs.Token.Legible
import SexpLayout.Proofs.Forms.Balanced
import SexpLayout.Proofs.Forms.Reading
import SexpLayout.Proofs.Forms.Respaced
import SexpLayout.Proofs.Forms.Spliced
import SexpLayout.Proofs.Format.Relaid
import SexpLayout.Proofs.Format.Canonical
import SexpLayout.Proofs.Format.Spliced
import SexpLayout.Proofs.Format.InPlace
import SexpLayout.Proofs.Format.Indentation
import SexpLayout.Proofs.Format.Drawn
import SexpLayout.Proofs.Format.Document
import SexpLayout.Proofs.Files.FormatAgain
import SexpLayout.Proofs.Files.Listing
import SexpLayout.Proofs.Files.Directory
import SexpLayout.Proofs.Files.Decodable
import SexpLayout.Proofs.Format.SpliceFree
import SexpLayout.Proofs.Format.Ink
import SexpLayout.Proofs.Buffer.Session
import SexpLayout.Proofs.Buffer.Selection
import SexpLayout.Proofs.Buffer.AnyOrder
import SexpLayout.Proofs.CommandLine.Failures
import SexpLayout.Proofs.Layout.Separators
import SexpLayout.Proofs.Format.Separated
import SexpLayout.Proofs.Text.Lines
import SexpLayout.Proofs.Format.OneLevel
import SexpLayout.Proofs.Format.IndentedGaps
import SexpLayout.Proofs.Format.IndentedColumns
import SexpLayout.Proofs.Format.IndentedLines
import SexpLayout.Proofs.CommandLine.Answers
import SexpLayout.Proofs.CommandLine.Arguments
import SexpLayout.Proofs.Layout.Breaks
import SexpLayout.Proofs.Layout.Pairs
import SexpLayout.Proofs.Forms.Partners
import SexpLayout.Proofs.Forms.Misread
import SexpLayout.Proofs.Buffer.Enclosing
import SexpLayout.Proofs.Format.Between
import SexpLayout.Proofs.Files.Atomic
import SexpLayout.Proofs.Config.Resolution
import SexpLayout.Proofs.Token.Tiling
import SexpLayout.Proofs.Token.Apart
import SexpLayout.Proofs.Format.Descent
