import ShellTree.Files.Directory
import ShellTree.Main
import ShellTree.Part
import ShellTree.Sink.Step
import ShellTree.Tree.Breaks
import ShellTree.Tree.Tokens
import ShellTree.Proofs.Levels
import ShellTree.Proofs.OneLine
import ShellTree.Proofs.ManyLines
import ShellTree.Proofs.Rejoining
import ShellTree.Proofs.Unambiguous
import ShellTree.Proofs.Content
import ShellTree.Address
import ShellTree.Proofs.Defects
import ShellTree.Decode.Spelling
import ShellTree.Proofs.Decoding
import ShellTree.Proofs.Terminators
import ShellTree.Layout.Tidy
import ShellTree.Proofs.Separators
import ShellTree.Layout.Braces
import ShellTree.Layout.Braced
import ShellTree.Proofs.Alignment
import ShellTree.CommandLine.Steps
import ShellTree.Proofs.Sessions
import ShellTree.Toml.Consumption
import ShellTree.Proofs.Capacity
import ShellTree.Proofs.Flags
import ShellTree.Proofs.Wording
import ShellTree.Proofs.FirstReport
import ShellTree.Proofs.SmallWorlds
import ShellTree.Proofs.Rendering
import ShellTree.Layout.FirstBreak
import ShellTree.Proofs.NewLines
import ShellTree.Proofs.TwoSinks
import ShellTree.Proofs.Framing
import ShellTree.Proofs.Raising
import ShellTree.Proofs.Bareness
import ShellTree.Sink.Lookahead
import ShellTree.Proofs.Lookahead
import ShellTree.Proofs.Diagnostics
import ShellTree.Proofs.Bodies
import ShellTree.Decode.Spoiling
import ShellTree.Proofs.Rejection
import ShellTree.CommandLine.Reports
import ShellTree.Proofs.Agreement
