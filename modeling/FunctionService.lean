import FunctionService.Json.Print
import FunctionService.Description
import FunctionService.Session
import FunctionService.Codec.Config
import FunctionService.Codec.Service
import FunctionService.Codec.Result
import FunctionService.Files.Disk
import FunctionService.Loading
import FunctionService.Command.Arguments
import FunctionService.Command.Run
import FunctionService.Main
import FunctionService.Proofs.Interleaving
import FunctionService.Proofs.Rules
import FunctionService.Proofs.Support
import FunctionService.Proofs.Completion
import FunctionService.Proofs.Forwarding
import FunctionService.Proofs.SourceOrder
import FunctionService.Proofs.PackageReports
import FunctionService.Proofs.Scheduling
import FunctionService.Proofs.CleanResult
import FunctionService.Proofs.KnownFields
import FunctionService.Proofs.RoundTrip
import FunctionService.Proofs.ServiceUnits
import FunctionService.Proofs.Histories
import FunctionService.Proofs.Checks
import FunctionService.Proofs.Dependence
import FunctionService.Proofs.Commands
import FunctionService.Proofs.Tokens
import FunctionService.Proofs.TypeSpelling
import FunctionService.Proofs.Regrouping
import FunctionService.Proofs.Grouping
import FunctionService.Proofs.TypeDefinitions
import FunctionService.Proofs.ArgumentLists
import FunctionService.Proofs.Indentation
import FunctionService.Proofs.StableOrder
import FunctionService.Proofs.AtomicSource
import FunctionService.Proofs.Readings
import FunctionService.Proofs.Shapes
import FunctionService.Proofs.Respelling
