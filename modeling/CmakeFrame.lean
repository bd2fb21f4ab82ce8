import CmakeFrame.Common.AES
import CmakeFrame.Common.Base64
import CmakeFrame.Common.Base64Text
import CmakeFrame.Common.DirUtil
import CmakeFrame.Common.FirstConstStr
import CmakeFrame.Common.Gzip
import CmakeFrame.Common.GzipWrappers
import CmakeFrame.Common.HexCodec
import CmakeFrame.Common.IniText
import CmakeFrame.Common.KeySlot
import CmakeFrame.Common.MysqlEncryPass
import CmakeFrame.Common.QueueExit
import CmakeFrame.Common.ReadyThreads
import CmakeFrame.Common.SplitReplace
import CmakeFrame.Common.StringUtility
import CmakeFrame.Common.ThreadPool
import CmakeFrame.Common.UpdateIniFile
import CmakeFrame.Common.UriCodec
import CmakeFrame.Common.UriPhone
import CmakeFrame.CurlHttpCli.AsyncCurlHttp
import CmakeFrame.CurlHttpCli.ConnPool
import CmakeFrame.CurlHttpCli.CurlHttpCli
import CmakeFrame.CurlHttpCli.Exit
import CmakeFrame.CurlHttpCli.HttpCliQueue
import CmakeFrame.CurlHttpCli.Requests
import CmakeFrame.CurlHttpCli.Response
import CmakeFrame.CurlHttpCli.Returns
import CmakeFrame.CurlHttpCli.Wakeups
import CmakeFrame.Lib.BitFields
import CmakeFrame.Lib.BlockModes
import CmakeFrame.Lib.CondVar
import CmakeFrame.Lib.Crc
import CmakeFrame.Lib.Cuts
import CmakeFrame.Lib.Decimal
import CmakeFrame.Lib.Dir
import CmakeFrame.Lib.Dirs
import CmakeFrame.Lib.Disk
import CmakeFrame.Lib.EventFd
import CmakeFrame.Lib.Fields
import CmakeFrame.Lib.Fill
import CmakeFrame.Lib.Octets
import CmakeFrame.Lib.OwnedPtr
import CmakeFrame.Lib.Padded
import CmakeFrame.Lib.Post
import CmakeFrame.Lib.Renames
import CmakeFrame.Lib.Search
import CmakeFrame.Lib.Separated
import CmakeFrame.Lib.Shared
import CmakeFrame.Lib.StreamCodec
import CmakeFrame.Lib.Sys
import CmakeFrame.Lib.Threads
import CmakeFrame.Lib.WaitQueue
import CmakeFrame.Lib.Words
import CmakeFrame.LibeventTcpCli.ClientEvents
import CmakeFrame.LibeventTcpCli.Exit
import CmakeFrame.LibeventTcpCli.Expire
import CmakeFrame.LibeventTcpCli.LibeventTcpCli
import CmakeFrame.LibeventTcpCli.LifeCycle
import CmakeFrame.LibeventTcpCli.LifeOf
import CmakeFrame.LibeventTcpCli.Moves
import CmakeFrame.LibeventTcpCli.Orders
import CmakeFrame.LibeventTcpCli.TcpClient
import CmakeFrame.LibeventTcpCli.UniqueNum
import CmakeFrame.MsgFile.DetailFileSys
import CmakeFrame.MsgFile.DetailQueue
import CmakeFrame.MsgFile.DetailText
import CmakeFrame.MsgFile.Details
import CmakeFrame.MsgFile.FileMgr
import CmakeFrame.MsgFile.MessageFilesImpl
import CmakeFrame.MsgFile.NameText
import CmakeFrame.MsgFile.ReadBack
import CmakeFrame.MsgFile.Rotation
import CmakeFrame.RedisAsyn.AnalysisNodes
import CmakeFrame.RedisAsyn.Answers
import CmakeFrame.RedisAsyn.Argv
import CmakeFrame.RedisAsyn.Attempts
import CmakeFrame.RedisAsyn.ClientTable
import CmakeFrame.RedisAsyn.ClusterCount
import CmakeFrame.RedisAsyn.ClusterNodes
import CmakeFrame.RedisAsyn.ClusterText
import CmakeFrame.RedisAsyn.Command
import CmakeFrame.RedisAsyn.ConnCount
import CmakeFrame.RedisAsyn.Endless
import CmakeFrame.RedisAsyn.InfoLines
import CmakeFrame.RedisAsyn.InfoRead
import CmakeFrame.RedisAsyn.KeySlot
import CmakeFrame.RedisAsyn.LibeventIo
import CmakeFrame.RedisAsyn.MasterSlave
import CmakeFrame.RedisAsyn.Reconnect
import CmakeFrame.RedisAsyn.Recount
import CmakeFrame.RedisAsyn.RedisClient
import CmakeFrame.RedisAsyn.RedisMgr
import CmakeFrame.RedisAsyn.RedisTools
import CmakeFrame.RedisAsyn.Refresh
import CmakeFrame.RedisAsyn.Register
import CmakeFrame.RedisAsyn.Replies
import CmakeFrame.RedisAsyn.ReplyCallbacks
import CmakeFrame.RedisAsyn.Routing
import CmakeFrame.RedisAsyn.Shutdown
import CmakeFrame.RedisAsyn.SlaveNodes
import CmakeFrame.RedisAsyn.TimerOrder
import CmakeFrame.RedisAsyn.Wakeup
import CmakeFrame.RedisCluster.Calls
import CmakeFrame.RedisCluster.Follow
import CmakeFrame.RedisCluster.KeySlot
import CmakeFrame.RedisCluster.Lifetime
import CmakeFrame.RedisCluster.NodeLines
import CmakeFrame.RedisCluster.NodePool
import CmakeFrame.RedisCluster.Recover
import CmakeFrame.RedisCluster.RedisClient
import CmakeFrame.RedisCluster.RedisClusterMgr
import CmakeFrame.RedisCluster.RedisClusterNode
import CmakeFrame.RedisCluster.RedisReplies
import CmakeFrame.RedisCluster.Reinit
import CmakeFrame.RedisCluster.Served
import CmakeFrame.RedisCluster.SlotMap
import CmakeFrame.RedisCluster.SlotText
import CmakeFrame.RedisLibevent.Async
import CmakeFrame.RedisLibevent.CommandText
import CmakeFrame.RedisLibevent.Paired
import CmakeFrame.RedisLibevent.RedisAsync
import CmakeFrame.RedisLibevent.Teardown
import CmakeFrame.RedisSync.RedisClient
import CmakeFrame.Remain.BakFiles
import CmakeFrame.Remain.Damaged
import CmakeFrame.Remain.Delivery
import CmakeFrame.Remain.FaultyDisk
import CmakeFrame.Remain.Folder
import CmakeFrame.Remain.Incommon
import CmakeFrame.Remain.Limits
import CmakeFrame.Remain.LineAccount
import CmakeFrame.Remain.Lines
import CmakeFrame.Remain.RawFields
import CmakeFrame.Remain.ReadFile
import CmakeFrame.Remain.Readers
import CmakeFrame.Remain.RemainMgr
import CmakeFrame.Remain.RemainObj
import CmakeFrame.Remain.Rotate
import CmakeFrame.Remain.RoundTrip
import CmakeFrame.Remain.WriteCases
import CmakeFrame.Remain.WriteFile
import CmakeFrame.SpeedControl.ControlSpeed
import CmakeFrame.SpeedControl.DataStatistics
import CmakeFrame.Zookafka.BrokerList
import CmakeFrame.Zookafka.Pools
import CmakeFrame.Zookafka.Subscription
import CmakeFrame.Zookafka.SwitchFlag
import CmakeFrame.Zookafka.TopicHandles
import CmakeFrame.Zookafka.ZooKfkCommon
import CmakeFrame.Zookafka.ZooKfkProducer
import CmakeFrame.Zookafka.ZooKfkTopicsGet
import CmakeFrame.Zookafka.ZooKfkTopicsPop
import CmakeFrame.Zookafka.ZooKfkTopicsPush
import CmakeFrame.Zookconfig.Cache
import CmakeFrame.Zookconfig.Client
import CmakeFrame.Zookconfig.CreateOrUpdate
import CmakeFrame.Zookconfig.CreatePath
import CmakeFrame.Zookconfig.Dispatch
import CmakeFrame.Zookconfig.ReadBack
import CmakeFrame.Zookconfig.Registration
import CmakeFrame.Zookconfig.ServerList
import CmakeFrame.Zookconfig.ZookConfig
