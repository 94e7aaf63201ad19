import DaphneZmq.Theorems.AcquireListChannels
import DaphneZmq.Theorems.AcquirePaths
import DaphneZmq.Theorems.Adc1283
import DaphneZmq.Theorems.Ads1260
import DaphneZmq.Theorems.Ads7138
import DaphneZmq.Theorems.AfeCache
import DaphneZmq.Theorems.AfeCells
import DaphneZmq.Theorems.AfeFunction
import DaphneZmq.Theorems.AfeTransfers
import DaphneZmq.Theorems.BestDelay
import DaphneZmq.Theorems.ConfigureFeMin
import DaphneZmq.Theorems.CurrentMonitor
import DaphneZmq.Theorems.DacHalves
import DaphneZmq.Theorems.DelayVtc
import DaphneZmq.Theorems.Endpoint
import DaphneZmq.Theorems.FeState
import DaphneZmq.Theorems.HdMezzClient
import DaphneZmq.Theorems.HexTokens
import DaphneZmq.Theorems.InputVoltage
import DaphneZmq.Theorems.LedCharge
import DaphneZmq.Theorems.LedSnrScan
import DaphneZmq.Theorems.MessageIds
import DaphneZmq.Theorems.MezzConfiguration
import DaphneZmq.Theorems.MezzSpi
import DaphneZmq.Theorems.MezzTurns
import DaphneZmq.Theorems.MonitorFaults
import DaphneZmq.Theorems.OscFft
import DaphneZmq.Theorems.Oscilloscope
import DaphneZmq.Theorems.QueueThreads
import DaphneZmq.Theorems.RegDict
import DaphneZmq.Theorems.SelfTrigger
import DaphneZmq.Theorems.SpyExtract
import DaphneZmq.Theorems.SspProgram
import DaphneZmq.Theorems.SweepPoint
import DaphneZmq.Theorems.TriggerCounters
import DaphneZmq.Theorems.WaveformDiskWriter
