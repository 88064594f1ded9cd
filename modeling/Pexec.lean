import Pexec.Lib.Attempts
import Pexec.Lib.Effect
import Pexec.Lib.Runs
import Pexec.MultiRun
import Pexec.WorldRules
import Pexec.SingleRules
import Pexec.VigilRules
import Pexec.ExitReports
import Pexec.JobWakeup
import Pexec.SigchldWakeup
import Pexec.FailedSpawn
import Pexec.RegistryRuns
import Pexec.Rerunning
import Pexec.SiblingLeaks
import Pexec.StaleReadiness
import Pexec.ArgumentPrinting
import Pexec.ArgumentLiterals
import Pexec.BlockingRuns
import Pexec.QueueBuffer
import Pexec.DispatchOrder
import Pexec.DescriptorUse
import Pexec.HandlerFrame
import Pexec.HandlerLife
import Pexec.FdSetBounds
import Pexec.JobTiming
import Pexec.HandedDescriptors
import Pexec.StatusHistory
import Pexec.CollectedOutput
import Pexec.Redirection
import Pexec.RepeatedRuns
import Pexec.InterruptedCalls
import Pexec.LaunchErrors
import Pexec.BlockingOutput
import Pexec.Lib.Observer
import Pexec.SigchldRules
import Pexec.MultiEmissions
import Pexec.SpawnEmissions
import Pexec.CallbackPhases
import Pexec.CallbackProtocol
import Pexec.EventRules
import Pexec.Lib.ServiceRuns
import Pexec.ServiceRefinement
import Pexec.Lib.Watchlist
import Pexec.Departures
import Pexec.RegisterCalls
import Pexec.Vigilance
import Pexec.WatchedDescriptors
import Pexec.OpenPipes
import Pexec.SpawnPipes
import Pexec.LifeDescriptors
import Pexec.LifeNeutral
import Pexec.SigchldSteps
import Pexec.JobSteps
import Pexec.PidBadges
import Pexec.PidRuns
