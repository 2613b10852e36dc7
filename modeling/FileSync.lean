import FileSync.Replication
import FileSync.HashAccumulation
import FileSync.DirectoryDiffs
import FileSync.DocumentedHash
import FileSync.BuildPlatforms
import FileSync.ReceivedWrites
import FileSync.Resynchronisation
import FileSync.Exceptions
import FileSync.FolderTable
import FileSync.PathTraversal
import FileSync.TransferLoops
import FileSync.FetchFailures
import FileSync.ConnectTiming
import FileSync.ReplyMatching
import FileSync.Rendezvous
import FileSync.EditDetection
import FileSync.Decoding
import FileSync.Startup
import FileSync.Arrival
import FileSync.Broadcast
import FileSync.ChangeBuffer
import FileSync.Library.Reader
import FileSync.Convergence
import FileSync.Deadlock
import FileSync.Messages
import FileSync.Propagation
import FileSync.TableManager
import FileSync.MeshSettling
import FileSync.WireMesh
import FileSync.Exchange
import FileSync.Ownership
import FileSync.Notifications
import FileSync.SharedState
import FileSync.MeshValidity
