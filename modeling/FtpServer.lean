import FtpServer.Navigation
import FtpServer.Returning
import FtpServer.Bounds
import FtpServer.Replies
import FtpServer.Library.Total
import FtpServer.Disk
import FtpServer.Transfers
import FtpServer.Restart
import FtpServer.Uploads
import FtpServer.Completion
import FtpServer.Sockets
import FtpServer.Server
import FtpServer.Isolation
import FtpServer.Leaks
import FtpServer.Commits
import FtpServer.Parents
import FtpServer.Arguments
import FtpServer.Flags
import FtpServer.Wording
import FtpServer.Overreads
import FtpServer.Library.LinkedList
import FtpServer.Nodes
import FtpServer.Readfds
import FtpServer.Downloads
import FtpServer.Chunking
import FtpServer.Addresses
import FtpServer.Verbs
import FtpServer.Listings
import FtpServer.Volume
import FtpServer.Opening
import FtpServer.Agreement
import FtpServer.Accepting
import FtpServer.Dhcp
import FtpServer.Polling
import FtpServer.Fallback
import FtpServer.Diskio
import FtpServer.Sectors
import FtpServer.Climbing
import FtpServer.Errors
import FtpServer.Library.Stateful
import FtpServer.Library.Packed
import FtpServer.Port
import FtpServer.Device
import FtpServer.Window
import FtpServer.Fat
import FtpServer.Clusters
import FtpServer.Allocation
import FtpServer.Layout
import FtpServer.Reading
import FtpServer.Writing
import FtpServer.Closing
import FtpServer.Seeking
import FtpServer.Streams
import FtpServer.Around
import FtpServer.Sharing
import FtpServer.Directory
import FtpServer.Following
import FtpServer.Entries
