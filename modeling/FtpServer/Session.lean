import FtpServer.Calls

/-! The session record and the commands (`ftpd.h`). -/

namespace FtpServer
open CString

def ftpDataPort : UInt16 := 20
def ftpPassvPort : UInt16 := 10000
def ftpSrvRoot : Bytes := bytes "/"
def ftpBufferSize : Nat := 512

inductive FtpState where
  | anonStat | userStat | loggedStat | quitStat
  deriving DecidableEq, Repr

inductive Cmd where
  | user | pass | list | nlst | pwd | type | pasv | retr | stor | size | mdtm | syst | cwd | cdup
  | port | rest | mkd | dele | rmd | feat | quit | uknwn
  deriving DecidableEq, Repr

/-- `struct conn` without its link; a string field holds the bytes before the NUL. -/
structure Conn where
  sockfd : Int
  remote : UInt32
  status : FtpState
  pasvActive : UInt8
  pasvSockfd : Int
  pasvPort : UInt16
  offset : UInt32
  currentdir : Bytes
  deriving DecidableEq, Repr

end FtpServer
