import DevMachines.Json.Reader
import DevMachines.Main
import DevMachines.Proofs.Vagrantfile.Decoding
import DevMachines.Proofs.Vagrantfile.Interpolation
import DevMachines.Proofs.Session.Activity
import DevMachines.Proofs.Terminal.Escaping
import DevMachines.Proofs.Settings.Documents
import DevMachines.Proofs.Session.Loading
import DevMachines.Proofs.Session.Resolving
import DevMachines.Proofs.Session.Declaring
import DevMachines.Proofs.Files.Home
import DevMachines.Proofs.Files.Frames
import DevMachines.Proofs.Session.Keeping
import DevMachines.Proofs.Session.Workspace
import DevMachines.Proofs.CommandLine.Preparing
import DevMachines.Proofs.CommandLine.Writing
import DevMachines.Proofs.Session.Tracing
import DevMachines.Proofs.Session.Operations
import DevMachines.Proofs.Session.Failing
import DevMachines.Proofs.CommandLine.Reading
import DevMachines.Proofs.CommandLine.Changing
import DevMachines.Proofs.CommandLine.Aborting
import DevMachines.Proofs.Session.Alike
import DevMachines.Proofs.CommandLine.Independence
import DevMachines.Proofs.Number.Digits
import DevMachines.Proofs.Json.Grammar
import DevMachines.Proofs.Json.Layout
import DevMachines.Proofs.Number.Rounding
import DevMachines.Proofs.Number.Shortest
import DevMachines.Proofs.Json.Doubles
import DevMachines.Proofs.Profile.JsonExport
import DevMachines.Proofs.Profile.YamlExport
import DevMachines.Proofs.Files.NormalForm
import DevMachines.Proofs.Profile.Rereading
import DevMachines.Proofs.CommandLine.FileFailures
import DevMachines.Proofs.CommandLine.RootGiven
import DevMachines.Proofs.Session.CopyBeside
import DevMachines.Proofs.CommandLine.Installing
import DevMachines.Proofs.Yaml.Numbers
import DevMachines.Proofs.CommandLine.Reprinting
import DevMachines.Proofs.CommandLine.NamingCommands
import DevMachines.Proofs.Session.Escapes
import DevMachines.Proofs.CommandLine.PrintingSettings
import DevMachines.Proofs.Session.Journaling
import DevMachines.Proofs.CommandLine.Diagnostics
import DevMachines.Proofs.Profile.TableExport
import DevMachines.Proofs.Vagrantfile.MachineNames
import DevMachines.Proofs.Session.FailedSetup
import DevMachines.Proofs.Settings.Grouping
import DevMachines.Proofs.Profile.Names
import DevMachines.Proofs.Profile.RepeatedSteps
import DevMachines.Proofs.Session.Brackets
import DevMachines.Proofs.Settings.Equality
