import CiPipeline.Main
import CiPipeline.Proofs.Directories
import CiPipeline.Proofs.GenerateCheck
import CiPipeline.Proofs.HandOver
import CiPipeline.Proofs.LineScan
import CiPipeline.Proofs.Outline
import CiPipeline.Proofs.WholeFiles
import CiPipeline.Proofs.Comparison
import CiPipeline.Proofs.CheckSites
import CiPipeline.Proofs.PathText
import CiPipeline.Proofs.Relocation
import CiPipeline.Proofs.BranchCondition
import CiPipeline.Proofs.CommandExit
import CiPipeline.Proofs.CommandChanges
import CiPipeline.Proofs.CommandHistory
import CiPipeline.Proofs.SoundWorkspace
import CiPipeline.Proofs.SettingsKept
import CiPipeline.Proofs.RoundTrip
import CiPipeline.Proofs.PublicationCondition
import CiPipeline.Proofs.WrittenForm
import CiPipeline.Proofs.FlowSequence
import CiPipeline.Proofs.EnvironmentBlock
import CiPipeline.Proofs.LiteralBlock
import CiPipeline.Proofs.StepParts
import CiPipeline.Proofs.ArtifactNames
import CiPipeline.Proofs.TargetPath
import CiPipeline.Proofs.CommandWords
import CiPipeline.Proofs.Overrides
import CiPipeline.Proofs.ActivityTrigger
import CiPipeline.Proofs.MissingConfig
import CiPipeline.Proofs.LinePattern
