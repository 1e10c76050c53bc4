import Kyber.Proofs.BundleCodec
import Kyber.Proofs.LayoutCodec
import Kyber.Proofs.Repeatable
import Kyber.Proofs.Positional
import Kyber.Proofs.ChunkRead
import Kyber.Proofs.ShaderDepots
import Kyber.Proofs.MergePaths
import Kyber.Proofs.DeferredHandlers
import Kyber.Proofs.ProxyIsolation
import Kyber.Proofs.ProxiedRouting
import Kyber.Proofs.SingleUse
import Kyber.Proofs.ServerBrowser
import Kyber.Proofs.Moderators
import Kyber.Proofs.Bans
import Kyber.Proofs.Reports
import Kyber.Proofs.Hosting
import Kyber.Proofs.ServerSockets
import Kyber.Proofs.LevelRequests
import Kyber.Proofs.ModCollection
import Kyber.Proofs.StaleServers
import Kyber.Proofs.ServerSettings
import Kyber.Proofs.LevelSetup
import Kyber.Proofs.ModImages
import Kyber.Proofs.LinkedAccounts
import Kyber.Proofs.Unlinking
import Kyber.Proofs.PatronStatus
import Kyber.Proofs.ManagementRights
import Kyber.Proofs.PlayerIdentity
import Kyber.Proofs.EventCancellation
import Kyber.Proofs.LuaStacks
import Kyber.Proofs.FrostyCollection
import Kyber.Proofs.MapRotation
import Kyber.Proofs.Registration
import Kyber.Proofs.Gate
import Kyber.Proofs.Upload
import Kyber.Proofs.ListenerDispatch
import Kyber.Proofs.ModRefresh
import Kyber.Proofs.JoinServer
import Kyber.Proofs.ManifestLengths
import Kyber.Proofs.ChunkMeta
import Kyber.Proofs.SavedNames
import Kyber.Proofs.AssetIdentity
import Kyber.ModLoader.LoadMod
import Kyber.Proofs.ModFiles
import Kyber.Proofs.ModSlices
import Kyber.Proofs.HandlerLookup
import Kyber.Proofs.LocalizationChunk
import Kyber.Proofs.TeamKits
import Kyber.Proofs.TeamDataMods
import Kyber.Proofs.PeerRouting
import Kyber.Proofs.RelayFraming
import Kyber.Persistence.PersistenceManager
import Kyber.Proofs.StatsProgress
import Kyber.Proofs.ConsoleLines
import Kyber.Proofs.ConsolePrivacy
import Kyber.Proofs.EntityOwners
import Kyber.Proofs.TeamShuffle
import Kyber.Core.ThreadExecutor
import Kyber.Proofs.DeferredFuncs
import Kyber.Core.MapRotation
import Kyber.Proofs.MapCycles
import Kyber.Script.LuaDataContainer
import Kyber.Proofs.LuaArrays
import Kyber.Proofs.ContainerRefs
import Kyber.Script.LuaConsole
import Kyber.Proofs.StackBalance
import Kyber.Proxy.Jwks
import Kyber.Proofs.KeyTrust
import Kyber.Lib.Groups
import Kyber.Launcher.ServerList
import Kyber.Proofs.ServerPages
import Kyber.Lib.Insertions
import Kyber.Proofs.CollectionOrder
import Kyber.Cli.ModHelper
import Kyber.Lib.Keyed
import Kyber.Launcher.ArchiveExtractor
import Kyber.Proofs.ArchiveFiles
import Kyber.Collection.ModCollection
import Kyber.Proofs.CollectionFiles
import Kyber.Launcher.Modes
import Kyber.Lib.Gaps
import Kyber.Launcher.Reordering
import Kyber.Proofs.Reordering
import Kyber.Launcher.LevelDeclarations
import Kyber.Proofs.LevelAgreement
import Kyber.Sdk.EntityOwner
import Kyber.Proofs.PlayerLists
import Kyber.Proofs.BundleSections
import Kyber.Proofs.LoadTermination
import Kyber.Lib.Recency
import Kyber.Api.LoginAddresses
import Kyber.Proofs.LoginAddresses
import Kyber.Proofs.Exchange
import Kyber.Proofs.CommandDelivery
import Kyber.Proofs.PlayerCaches
import Kyber.Lib.Layouts
import Kyber.Script.LuaFields
import Kyber.Proofs.LuaFields
import Kyber.ModLoader.FrostyFormat
import Kyber.ModLoader.FrostyMod
import Kyber.Collection.FrostyMod
import Kyber.Lib.Readers
import Kyber.Proofs.FrostyFormat
import Kyber.Proofs.FrostyLoad
import Kyber.Proofs.FrostyFiles
import Kyber.Proofs.FrostyData
import Kyber.Proofs.FrostyReader
import Kyber.ModLoader.ListHandlers
import Kyber.Proofs.ListHandlers
