import EccFe.Runtime.Lifecycle
import EccFe.Engine.CacheSoundness
import EccFe.Catalog.Agreement
import EccFe.Application.SuiteReload
import EccFe.Runtime.Transport
import EccFe.Runtime.Interleaving
import EccFe.Adapters.Bridges
import EccFe.Runtime.RecoverRuns
import EccFe.Runtime.Dispatch
import EccFe.Analysis.Acceptance
import EccFe.Tools.Prepare.Rerun
import EccFe.Engine.ToolIdentity
import EccFe.Tools.ContentDigest
import EccFe.Analysis.TripletFiles
import EccFe.Cli.Archive
import EccFe.Cli.Layout
import EccFe.Cli.Install
import EccFe.Cli.Manifest
import EccFe.Analysis.LinkLine
import EccFe.Analysis.LintTables
import EccFe.Tools.Review.Delta
import EccFe.Tools.Review.Waivers
import EccFe.Tools.Review.DeepPath
import EccFe.Tools.Verilator.Programs
import EccFe.Cli.Project.Config
import EccFe.Catalog.Validation
import EccFe.Adapters.ByteLanes
import EccFe.Tools.SvDirectives
import EccFe.Tools.SvDeclarations
import EccFe.Application.RepairReload
import EccFe.Runtime.LengthHeader
import EccFe.Cli.LogTail
import EccFe.Analysis.ResponseFiles
import EccFe.Tools.Prepare.Expansion
import EccFe.Tools.Review.SourceScan
import EccFe.Analysis.SimulationScore
import EccFe.Soc.Simulation
import EccFe.Soc.SdramAxi
import EccFe.Analysis.QualityGate
import EccFe.Analysis.PrepareReport
import EccFe.Analysis.RegressionReport
import EccFe.Tools.Verilator.RunLog
import EccFe.Analysis.CaseReport
