import PowerBench.Child.Lookup
import PowerBench.Child.Run
import PowerBench.Child.Shell.Run
import PowerBench.Main
import PowerBench.Proofs.FileTree
import PowerBench.Proofs.ScratchFile
import PowerBench.Proofs.Session
import PowerBench.Proofs.Transcript
import PowerBench.Proofs.Markers
import PowerBench.Client.Step
import PowerBench.Proofs.Conduct
import PowerBench.Proofs.SideBySide
import PowerBench.Proofs.Capabilities
import PowerBench.Proofs.AsciiText
import PowerBench.Proofs.Sheet
import PowerBench.Proofs.TraceFaults
import PowerBench.Proofs.SheetRows
import PowerBench.Proofs.TraceText
import PowerBench.Proofs.BlankFile
import PowerBench.Proofs.Seconds
import PowerBench.Proofs.WholeValues
import PowerBench.Proofs.FractionalTime
import PowerBench.Proofs.IntegerTime
import PowerBench.Proofs.ConfigOrigin
import PowerBench.Proofs.LastWrites
import PowerBench.Proofs.Rebuild
import PowerBench.Proofs.WrittenInteger
import PowerBench.Proofs.RequestTokens
import PowerBench.Proofs.Outcome
import PowerBench.Proofs.Entries
import PowerBench.Proofs.YamlTree
import PowerBench.Proofs.ReportKept
import PowerBench.Proofs.ReportRoundTrip
import PowerBench.Proofs.CommandLine
import PowerBench.Proofs.ProgramRun
import PowerBench.Proofs.Tasks
import PowerBench.Proofs.MarkerOptions
import PowerBench.Proofs.TimeOptions
import PowerBench.Proofs.Binary64Nearest
import PowerBench.Proofs.ShortestDecimal
import PowerBench.Proofs.DecimalText
import PowerBench.Proofs.JsonText
import PowerBench.Proofs.ReportFormats
import PowerBench.Proofs.ExitCodes
import PowerBench.Proofs.ParsedArguments
import PowerBench.Proofs.ProgramOutput
import PowerBench.Proofs.EnvSettings
import PowerBench.Proofs.CalendarTime
import PowerBench.Proofs.DateTimeText
import PowerBench.Proofs.ConfigFile
import PowerBench.Proofs.Provenance
import PowerBench.Proofs.TimeLimits
import PowerBench.Proofs.Destinations
import PowerBench.Proofs.BlankArguments
import PowerBench.Proofs.CommandLineWords
import PowerBench.Proofs.WatchedChild
import PowerBench.Proofs.SettingValues
import PowerBench.Proofs.LogSetup
import PowerBench.Proofs.ByteOrder
import PowerBench.Proofs.ChannelNames
import PowerBench.Proofs.DenotedDecimal
import PowerBench.Proofs.RoundingOrder
import PowerBench.Proofs.TraceOrder
