import DumpRouter.Main
import DumpRouter.Proofs.Split.DryRun
import DumpRouter.Proofs.Split.Reread
import DumpRouter.Proofs.Split.Reuse
import DumpRouter.Proofs.Split.Progress
import DumpRouter.Proofs.Source.Throttle
import DumpRouter.Proofs.Reader.Sharing
import DumpRouter.Proofs.Statement.Positions.Classified
import DumpRouter.Proofs.Writer.Operations
import DumpRouter.Proofs.Writer.Numbering
import DumpRouter.Proofs.Export.Apart
import DumpRouter.Proofs.Export.Refused
import DumpRouter.Proofs.Writer.SafePaths
import DumpRouter.Proofs.Analysis.Order
import DumpRouter.Proofs.Text.Utf8
import DumpRouter.Proofs.Export.Csv
import DumpRouter.Proofs.Export.JsonText
import DumpRouter.Proofs.Export.Json
import DumpRouter.Proofs.Statement.Phrases
import DumpRouter.Proofs.Statement.Tokens
import DumpRouter.Proofs.Statement.Grammar
import DumpRouter.Proofs.Statement.Recognition
import DumpRouter.Proofs.Statement.RunOn
import DumpRouter.Proofs.Statement.Schema
import DumpRouter.Proofs.Statement.Spellings
import DumpRouter.Proofs.Writer.Spelling
import DumpRouter.Proofs.Statement.Stripping
import DumpRouter.Proofs.Writer.Calls
import DumpRouter.Proofs.Writer.CloseAll
import DumpRouter.Proofs.Disk.Confined
import DumpRouter.Proofs.Disk.Keeps
import DumpRouter.Proofs.Reader.Metered
