import HiveSDK.Interaction.Program
import HiveSDK.Interaction.Trace
import HiveSDK.Interaction.Logged
import HiveSDK.Interaction.Confined
import HiveSDK.Interaction.Reach
import HiveSDK.Interaction.Interrupted
import HiveSDK.Interaction.Total
import HiveSDK.Interaction.Search
import HiveSDK.Interaction.Simulation
import HiveSDK.Interaction.Lockstep
import HiveSDK.Interaction.Concurrent
import HiveSDK.Interaction.Gate
import HiveSDK.Memory.Heap
import HiveSDK.C.Integers
import HiveSDK.Model.Error
import HiveSDK.Model.Environment
import HiveSDK.Model.OAuthToken
import HiveSDK.Model.OneDrive
import HiveSDK.Model.IPFS
import HiveSDK.Model.Connect
import HiveSDK.Model.Client
import HiveSDK.Model.Hive
import HiveSDK.Model.Strerror
import HiveSDK.Model.TokenStorage
import HiveSDK.Url.Path
import HiveSDK.Url.Form
import HiveSDK.Url.Authority
import HiveSDK.Model.HttpClient
import HiveSDK.Http.ResponseBody
import HiveSDK.Http.Replies
import HiveSDK.Http.Handlers
import HiveSDK.Http.Accumulator
import HiveSDK.OneDrive.Requests
import HiveSDK.OneDrive.Download
import HiveSDK.OneDrive.Names
import HiveSDK.OneDrive.Urls
import HiveSDK.OneDrive.Listing
import HiveSDK.Token.Spec
import HiveSDK.Token.Storage
import HiveSDK.Token.Atomic
import HiveSDK.Token.Redeem
import HiveSDK.Token.FormBody
import HiveSDK.Token.Connect
import HiveSDK.Token.AuthorizationCode
import HiveSDK.Service.Drive
import HiveSDK.Service.Loopback
import HiveSDK.Service.Spec
import HiveSDK.Service.Healthy
import HiveSDK.Service.Expiring
import HiveSDK.KeyValue.Log
import HiveSDK.KeyValue.Walk
import HiveSDK.KeyValue.Refinement
import HiveSDK.KeyValue.Absence
import HiveSDK.KeyValue.Language
import HiveSDK.KeyValue.Concurrent
import HiveSDK.IPFS.Requests
import HiveSDK.IPFS.Nodes
import HiveSDK.IPFS.Bootstrap
import HiveSDK.IPFS.Download
import HiveSDK.IPFS.Addresses
import HiveSDK.Files.RoundTrip
import HiveSDK.FileTree.Tree
import HiveSDK.OneDrive.Uploads
import HiveSDK.Files.Directories
import HiveSDK.Files.LocalDisk
import HiveSDK.Files.LocalFiles
import HiveSDK.Token.Keystore
import HiveSDK.Token.Writeback
import HiveSDK.Model.Sandbird
import HiveSDK.Sandbird.GetRequest
import HiveSDK.Sandbird.Runs
import HiveSDK.Token.Reconnect
import HiveSDK.Token.Protocol
import HiveSDK.Errors.Oblivious
import HiveSDK.Errors.Accountable
import HiveSDK.Errors.Lengths
import HiveSDK.Errors.Overreads
import HiveSDK.IPFS.Contents
import HiveSDK.Errors.Connect
import HiveSDK.Errors.Login
import HiveSDK.Errors.Reported
import HiveSDK.Errors.Strerror
