import ResMonitor.Lib.Flex
import ResMonitor.Lib.Lexer
import ResMonitor.Lib.CircularBuffer
import ResMonitor.Lib.RunLength
import ResMonitor.Lib.UnorderedMap
import ResMonitor.Config
import ResMonitor.ResStates
import ResMonitor.SamplingManager
import ResMonitor.Polls
import ResMonitor.Activation
import ResMonitor.Predicate
import ResMonitor.Alarm
import ResMonitor.PredicateEngine
import ResMonitor.Dispatch
import ResMonitor.AlarmRuns
import ResMonitor.FalseAlarm
import ResMonitor.Rearming
import ResMonitor.HashOrder
import ResMonitor.Logs
import ResMonitor.ConfigRules
import ResMonitor.ConfigLexer
import ResMonitor.Effects
import ResMonitor.StartStack
import ResMonitor.Statements
import ResMonitor.Lexemes
import ResMonitor.Lines
import ResMonitor.ParseStatements
import ResMonitor.ParseConfig
import ResMonitor.ParsedUnits
import ResMonitor.Lib.OpenList
import ResMonitor.TextReads
import ResMonitor.Reparse
import ResMonitor.OwnPoll
import ResMonitor.LinuxResProvider
import ResMonitor.UnreadableSamples
import ResMonitor.Lib.RunningMean
import ResMonitor.Means
import ResMonitor.ThresholdUnits
import ResMonitor.PredicateHistory
import ResMonitor.ExactlyOnce
import ResMonitor.LateSubscriber
import ResMonitor.Lib.StdString
import ResMonitor.TriggerChoose
import ResMonitor.Lib.Transitions
import ResMonitor.LifeCycle
import ResMonitor.Lib.Windows
import ResMonitor.LogWindows
import ResMonitor.SetEmail
import ResMonitor.Lib.Calls
import ResMonitor.CpuUsage
import ResMonitor.DiskRates
import ResMonitor.LastLine
import ResMonitor.ExactDurations
import ResMonitor.QueryString
import ResMonitor.Print
import ResMonitor.Handlers
import ResMonitor.Mailer
import ResMonitor.Monitor
import ResMonitor.MonitorRuns
import ResMonitor.ScopeRunner
import ResMonitor.HttpRequest
import ResMonitor.HttpServer
import ResMonitor.Connections
import ResMonitor.Lib.CStrings
import ResMonitor.ProcFiles
import ResMonitor.Lib.Smtp
import ResMonitor.SmtpClient
