import BunkerWeb.Attribution
import BunkerWeb.Cli.ApiCaller
import BunkerWeb.Cli.FanOut
import BunkerWeb.VariablesEnv
import BunkerWeb.Db.Atomicity
import BunkerWeb.Db.Integrity
import BunkerWeb.Db.Ownership
import BunkerWeb.Db.RoundTrip
import BunkerWeb.Db.TemplateRoundTrip
import BunkerWeb.Db.PluginRemoval
import BunkerWeb.Db.SyncFrame
import BunkerWeb.Db.InitConverge
import BunkerWeb.Lua.LimitWindow
import BunkerWeb.Lua.Limit
import BunkerWeb.Lua.Banning
import BunkerWeb.Lua.Unban
import BunkerWeb.Lua.DetectMode
import BunkerWeb.Lua.Counting
import BunkerWeb.Lua.CacheKeys
import BunkerWeb.Lua.LimitKeys
import BunkerWeb.Lua.LimitGlobal
import BunkerWeb.Lua.LimitRules
import BunkerWeb.Db.InstanceOwners
import BunkerWeb.Scheduler.Verdict
import BunkerWeb.Lua.FacetsExact
import BunkerWeb.Scheduler.Changes
import BunkerWeb.Scheduler.Failover
import BunkerWeb.Lib.Fields
import BunkerWeb.Lib.CommonSuffix
import BunkerWeb.LetsEncrypt.WildcardBases
import BunkerWeb.LetsEncrypt.Coverage
import BunkerWeb.LetsEncrypt.ServingExact
import BunkerWeb.LetsEncrypt.SecondRun
import BunkerWeb.Lib.Datalog
import BunkerWeb.Api.PublicPaths
import BunkerWeb.Api.Permissions
import BunkerWeb.Api.Authorization
import BunkerWeb.Lua.NeutralPlugins
import BunkerWeb.Lua.Antibot
import BunkerWeb.Lua.AntibotGate
import BunkerWeb.Ui.Sessions
import BunkerWeb.Ui.RevokedSessions
import BunkerWeb.Ui.SecondFactor
import BunkerWeb.Ui.Biscuit
import BunkerWeb.Ui.ReaderRole
import BunkerWeb.Ui.SharedData
import BunkerWeb.Lib.Nested
import BunkerWeb.Autoconf.MergeSlots
import BunkerWeb.Lib.Pooling
import BunkerWeb.Scheduler.ConfigsRoundTrip
import BunkerWeb.Api.GlobalSettings
import BunkerWeb.Db.ResaveRuns
import BunkerWeb.Db.Groups
import BunkerWeb.Db.Stands
import BunkerWeb.Lib.Guarded
import BunkerWeb.Db.Session
import BunkerWeb.Autoconf.Apply
import BunkerWeb.Autoconf.Debounce
import BunkerWeb.Autoconf.Retries
import BunkerWeb.Db.Completion
import BunkerWeb.Db.InitKeeping
import BunkerWeb.Db.OptionFrame
import BunkerWeb.Db.PluginOptions
import BunkerWeb.Db.TemplateUpdate
import BunkerWeb.Lib.FileTree
import BunkerWeb.Lib.Marker
import BunkerWeb.Lua.BanListing
import BunkerWeb.TarMembers
import BunkerWeb.Lib.Placing
import BunkerWeb.Lua.Variables
import BunkerWeb.Lua.PluginsOrder
import BunkerWeb.Lua.Whitelist
import BunkerWeb.Lua.WhitelistReaders
import BunkerWeb.Db.CustomConfigs
import BunkerWeb.Db.ConfigsUnique
import BunkerWeb.Lib.Directory
import BunkerWeb.Cache.Restore
import BunkerWeb.Cache.Complete
import BunkerWeb.Cache.Stale
import BunkerWeb.Lib.Recent
import BunkerWeb.Lua.Metrics
import BunkerWeb.Lua.BanTimer
import BunkerWeb.Lib.SuffixRules
import BunkerWeb.LetsEncrypt.PublicSuffix
import BunkerWeb.LetsEncrypt.Cleanup
import BunkerWeb.Scheduler.Polling
import BunkerWeb.Api.PartialUpdate
import BunkerWeb.Lib.Ordered
import BunkerWeb.Autoconf.Streams
import BunkerWeb.Lib.Csv
import BunkerWeb.Api.RateForms
import BunkerWeb.Blacklist.ValidLines
import BunkerWeb.Lib.Trim
import BunkerWeb.Lua.AuthBasicExact
import BunkerWeb.Lua.Cors
import BunkerWeb.Lua.AntibotReturn
import BunkerWeb.Db.Store
import BunkerWeb.Autoconf.Comeback
import BunkerWeb.Lua.Dnsbl
import BunkerWeb.Lua.ReverseScan
import BunkerWeb.Lua.Headers
import BunkerWeb.Ui.BanList
import BunkerWeb.Ui.NextUrl
import BunkerWeb.Ui.RedisRequests
import BunkerWeb.Ui.ReportPaths
import BunkerWeb.Cli.ApiRequest
import BunkerWeb.Scheduler.Healthcheck
import BunkerWeb.Db.EffectiveConfigs
import BunkerWeb.Ui.AccountFrame
import BunkerWeb.Configurator
import BunkerWeb.Lua.BanCluster
import BunkerWeb.BunkerNet.Reports
import BunkerWeb.Db.FilteredReading
import BunkerWeb.Cache.JobCache
import BunkerWeb.Templator
import BunkerWeb.Lua.LoadedVariables
