import NetworkProtocols.Lib.AppendStore
import NetworkProtocols.Lib.Blocks
import NetworkProtocols.Lib.Bytes
import NetworkProtocols.Lib.Channel
import NetworkProtocols.Lib.Directories
import NetworkProtocols.Lib.Disk
import NetworkProtocols.Lib.FileStream
import NetworkProtocols.Lib.History
import NetworkProtocols.Lib.LexicalPath
import NetworkProtocols.Lib.LineEnds
import NetworkProtocols.Lib.Lines
import NetworkProtocols.Lib.NetworkOrder
import NetworkProtocols.Lib.Program
import NetworkProtocols.Lib.Recent
import NetworkProtocols.Lib.StdVector
import NetworkProtocols.Lib.Terminal
import NetworkProtocols.Lib.Transition
import NetworkProtocols.Tftp.ReliableGet
import NetworkProtocols.Tftp.Server
import NetworkProtocols.Tftp.WriteSession
import NetworkProtocols.Tftp.ReliablePut
import NetworkProtocols.Tftp.LossyPut
import NetworkProtocols.Tftp.LossyGet
import NetworkProtocols.Tftp.ClientFiles
import NetworkProtocols.Tftp.DuplicateData
import NetworkProtocols.Tftp.AcknowledgedBlock
import NetworkProtocols.Tftp.Answers
import NetworkProtocols.Tftp.Footprint
import NetworkProtocols.Tftp.Isolation
import NetworkProtocols.Tftp.OtherClients
import NetworkProtocols.Tftp.OwnBytes
import NetworkProtocols.Tftp.PutAmongOthers
import NetworkProtocols.Tftp.Refusal
import NetworkProtocols.Tftp.SendBuffer
import NetworkProtocols.Tftp.ReceiveBounds
import NetworkProtocols.Tftp.Assertions
import NetworkProtocols.Tftp.FailedGet
import NetworkProtocols.Tftp.UnknownMessages
import NetworkProtocols.Tftp.RequestMessage
import NetworkProtocols.Tftp.FailedSend
import NetworkProtocols.Tftp.FileSafety
import NetworkProtocols.Tftp.GetAmongOthers
import NetworkProtocols.Dns.Framing
import NetworkProtocols.Dns.LongerBuffer
import NetworkProtocols.Dns.Lookups
import NetworkProtocols.Dns.Traffic
import NetworkProtocols.Dns.Compression
import NetworkProtocols.Dns.Sections
import NetworkProtocols.Dns.Server
import NetworkProtocols.Dns.EncodedName
import NetworkProtocols.Dns.AddressRecord
import NetworkProtocols.Dns.NameKinds
import NetworkProtocols.Dns.Records
import NetworkProtocols.Dns.ObsoleteReader
import NetworkProtocols.Smtp.AcceptedMail
import NetworkProtocols.Smtp.Segmentation
import NetworkProtocols.Smtp.Exchange
import NetworkProtocols.Smtp.MessageMode
import NetworkProtocols.Smtp.Recipients
import NetworkProtocols.Smtp.Sequence
import NetworkProtocols.Smtp.Effects
import NetworkProtocols.Smtp.Server
import NetworkProtocols.Smtp.Mailboxes
import NetworkProtocols.Smtp.Progress
import NetworkProtocols.Smtp.MailboxPaths
import NetworkProtocols.Smtp.Dispatch
import NetworkProtocols.Smtp.Address
import NetworkProtocols.Smtp.AtomicHelo
import NetworkProtocols.Smtp.ExistingMailboxes
import NetworkProtocols.Ftp.Session
import NetworkProtocols.Ftp.Commands
import NetworkProtocols.Ftp.Store
import NetworkProtocols.Ftp.Effects
import NetworkProtocols.Ftp.Changes
import NetworkProtocols.Ftp.Worker
import NetworkProtocols.Ftp.CommandLines
import NetworkProtocols.Ftp.Login
import NetworkProtocols.Ftp.Confinement
import NetworkProtocols.Ftp.DataConnection
import NetworkProtocols.Ftp.FailedOpen
import NetworkProtocols.Ftp.FinalReply
import NetworkProtocols.Ftp.LatestUser
import NetworkProtocols.Ftp.PortGrammar
import NetworkProtocols.Ftp.PassiveAddress
import NetworkProtocols.Ftp.Replies
import NetworkProtocols.Ftp.SentFiles
import NetworkProtocols.Ftp.SessionEnd
import NetworkProtocols.Telnet.Session
import NetworkProtocols.Telnet.Login
import NetworkProtocols.Telnet.History
import NetworkProtocols.Telnet.Segmentation
import NetworkProtocols.Telnet.Prompts
import NetworkProtocols.Telnet.Screen
import NetworkProtocols.Telnet.Confirmation
import NetworkProtocols.TelnetServer.Server
import NetworkProtocols.TelnetServer.Operations
import NetworkProtocols.TelnetServer.EditedLine
import NetworkProtocols.TelnetServer.Logins
import NetworkProtocols.TelnetServer.CommandChunks
import NetworkProtocols.TelnetServer.SessionIds
