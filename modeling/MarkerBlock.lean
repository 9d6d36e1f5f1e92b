import MarkerBlock.CodePage.Labels
import MarkerBlock.CommandLine.Run
import MarkerBlock.CommandLine.Usage
import MarkerBlock.Config.Loading
import MarkerBlock.Encoding.Detection
import MarkerBlock.Encoding.Message
import MarkerBlock.Insertion
import MarkerBlock.Job.Batch
import MarkerBlock.Main
import MarkerBlock.Report.Writing
import MarkerBlock.Proofs.Encoding.Utf16
import MarkerBlock.Proofs.Encoding.Utf32
import MarkerBlock.Proofs.Encoding.Utf8
import MarkerBlock.Proofs.CodePage
import MarkerBlock.Proofs.Encoding.Codec
import MarkerBlock.Proofs.Insertion
import MarkerBlock.Proofs.FileTree.Basic
import MarkerBlock.Proofs.FileTree.Location
import MarkerBlock.Proofs.FileTree
import MarkerBlock.Proofs.Encoding.BitBuffer
import MarkerBlock.Proofs.Encoding.Utf7
import MarkerBlock.Proofs.Encoding.Utf7Signature
import MarkerBlock.Proofs.Encoding.Detection
import MarkerBlock.Proofs.Encoding.Recognition
import MarkerBlock.Proofs.Encoding.Opening
import MarkerBlock.Proofs.Encoding.Utf7Pieces
import MarkerBlock.Proofs.Encoding.Length
import MarkerBlock.Proofs.Job.Detector
import MarkerBlock.Proofs.Job.File
import MarkerBlock.Proofs.Job.Splice
import MarkerBlock.Proofs.Job.SecondRun
import MarkerBlock.Proofs.FileTree.Spelling
import MarkerBlock.Proofs.Ignore.Loading
import MarkerBlock.Proofs.Job.Frame
import MarkerBlock.Proofs.Job.Batch
import MarkerBlock.Proofs.Job.DryRun
import MarkerBlock.Proofs.FileTree.Refill
import MarkerBlock.Proofs.Job.Order
import MarkerBlock.Proofs.CommandLine.Run
import MarkerBlock.Proofs.Encoding.Zeros
import MarkerBlock.Proofs.Job.SecondRunUtf16
import MarkerBlock.Proofs.Glob.Literal
import MarkerBlock.Proofs.Ignore.Anchored
import MarkerBlock.Proofs.Job.NestedRule
import MarkerBlock.Proofs.Config
import MarkerBlock.Proofs.Report
import MarkerBlock.Proofs.CommandLine.Account
import MarkerBlock.Proofs.Path.Below
import MarkerBlock.Proofs.FileTree.Passage
import MarkerBlock.Proofs.Selection
import MarkerBlock.Proofs.FileTree.Copy
import MarkerBlock.Proofs.Ignore.Relocation
import MarkerBlock.Proofs.Job.Placement
import MarkerBlock.Proofs.Job.Relocation
import MarkerBlock.Proofs.Selection.Order
import MarkerBlock.Proofs.CodePage.Registration
import MarkerBlock.Proofs.Report.Csv
import MarkerBlock.Proofs.CommandLine.Reports
import MarkerBlock.Proofs.Job.RelativeRoot
import MarkerBlock.Proofs.Encoding.Utf7Segment
import MarkerBlock.Proofs.Job.Differences
import MarkerBlock.Proofs.Job.SavedDifferences
import MarkerBlock.Proofs.Encoding.Coverage
import MarkerBlock.Proofs.Filter.Extension
import MarkerBlock.Proofs.Filter.Fragment
import MarkerBlock.Proofs.Ignore.Names
import MarkerBlock.Proofs.CommandLine.Quiet
import MarkerBlock.Proofs.Ignore.Precedence
import MarkerBlock.Proofs.Path.Relative
import MarkerBlock.Proofs.Path.Inside
import MarkerBlock.Proofs.Encoding.Fault
import MarkerBlock.Proofs.Encoding.Unbounded
import MarkerBlock.Proofs.Selection.Workspace
