import Provision.Proofs.Execution.InterleavedActivity
import Provision.Session
import Provision.LogSettings
import Provision.Trial.Registrations
import Provision.Trial.ScopeTree
import Provision.Proofs.Execution.Moments
import Provision.Proofs.Registries.ScopeTree
import Provision.Proofs.Resolution.ResolutionUpkeep
import Provision.Proofs.Resolution.DemandPrograms
import Provision.Proofs.Registries.TreeGrowth
import Provision.Proofs.Resolution.DependencyGraph
import Provision.Proofs.Resolution.ReportedCycles
import Provision.Proofs.Closing.ClosersRunOnce
import Provision.Proofs.Execution.CellHistories
import Provision.Proofs.Instances.KeepingConduct
import Provision.Proofs.Instances.KeptInstances
import Provision.Proofs.Instances.MadeOnce
import Provision.Proofs.Closing.InstanceBooks
import Provision.Proofs.Closing.InstanceCustody
import Provision.Proofs.Closing.GuardedInstances
import Provision.Proofs.Closing.InstanceDisposal
import Provision.Proofs.Contexts.Cancellation
import Provision.Proofs.Closing.OpenWhenHandedOut
import Provision.Proofs.Execution.RunningAlone
import Provision.Proofs.Instances.FailureReplay
import Provision.Proofs.Meaning.KeyMeaning
import Provision.Proofs.Registries.BuiltRegistries
import Provision.Proofs.Meaning.ComputedValues
import Provision.Proofs.Meaning.ValuesAgree
import Provision.Proofs.Instances.WaitingForCells
import Provision.Proofs.Resolution.SuccessAlone
import Provision.Proofs.Resolution.CalmWorlds
import Provision.Proofs.Resolution.NestingDepth
import Provision.Proofs.Resolution.KeyTrails
import Provision.Proofs.Meaning.ResolvedMeaning
import Provision.Proofs.Execution.RequestTraces
import Provision.Proofs.Instances.KeptFailures
import Provision.Proofs.Registries.RegistryContents
import Provision.Proofs.Registries.RegistrationOrder
import Provision.Proofs.Registries.ItemPositions
import Provision.Proofs.Trials.TrialRuns
import Provision.Proofs.Trials.TrialRequests
import Provision.Proofs.Trials.ScopeTreeTrial
import Provision.Proofs.Instances.ValueResidence
import Provision.Proofs.Closing.NoCaptives
import Provision.Proofs.Closing.CloseOrder
import Provision.Proofs.Resolution.RequestsTerminate
import Provision.Proofs.Resolution.ResolutionEnds
import Provision.Proofs.Resolution.SingletonRequests
import Provision.Proofs.Resolution.ErrorPaths
import Provision.Proofs.Resolution.RequestReach
import Provision.Proofs.Types.TypeGuards
import Provision.Proofs.Types.MirroredRequests
import Provision.Proofs.Types.WellTypedValues
import Provision.Proofs.Resolution.KeyLookup
import Provision.Proofs.Instances.DecoratedValues
import Provision.Proofs.Instances.ListItems
import Provision.Proofs.Handles.LentHandles
import Provision.Proofs.Handles.PassedHandles
import Provision.Proofs.Handles.RaisedFlags
import Provision.Proofs.Handles.GuardedHandles
import Provision.Proofs.Trials.DecidedRequests
import Provision.Proofs.Trials.AcceptedRegistrations
import Provision.Proofs.Trials.RegistrationTrial
import Provision.Proofs.Instances.FixedValues
import Provision.Proofs.Registries.ReservedListKeys
import Provision.Proofs.Registries.BuildOutcomes
import Provision.Proofs.Registries.RegistrationConflicts
import Provision.Proofs.Closing.PromisedClosers
import Provision.Proofs.Closing.ClosingScopes
import Provision.Proofs.Registries.ParameterTags
import Provision.Proofs.Contexts.ConfinedCancellation
import Provision.Proofs.Contexts.ContextActivity
import Provision.Proofs.Contexts.Deadlines
import Provision.Proofs.Contexts.Wakeups
import Provision.Proofs.Contexts.UndisturbedTasks
