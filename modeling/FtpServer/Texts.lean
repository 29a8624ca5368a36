import FtpServer.Session

/-! The replies: each format of `do_send_reply` with its arguments. -/

namespace FtpServer
open CString

inductive Reply where
  | openingList
  | openingPartial (path : Bytes) (rest total : Int)
  | openingWhole (path : Bytes) (total : Int)
  | openingUpload (path : Bytes)
  | passwordRequired (name : Bytes)
  | passwordOk
  | transferComplete
  | typeBinary
  | typeAscii
  | finished
  | notRegular (path : Bytes)
  | cannotWrite (path : Bytes)
  | sizeIs (numBytes : Int)
  | noMdtm
  | unixType
  | currentDirectory (dir : Bytes)
  | changedTo (path : Bytes)
  | cannotOpen
  | portSuccessful
  | sendTransfer
  | dirCreated (path : Bytes)
  | fileExists (path : Bytes)
  | fileDeleted (path : Bytes)
  | noSuchFile (path : Bytes)
  | dirDeleted (path : Bytes)
  | noSuchDir (path : Bytes)
  | enteringPassive (addr : UInt32) (port : UInt16)
  | noFeatures
  | adios
  | notImplemented
  | listFailed
  | simpleListFailed
  deriving DecidableEq, Repr

def Reply.text : Reply → Bytes
  | openingList => bytes "150 Opening Binary mode connection for file list.\r\n"
  | openingPartial path rest total =>
    bytes "150 Opening binary mode data connection for partial \"" ++ path ++ bytes "\" (" ++
      showInt rest ++ bytes "/" ++ showInt total ++ bytes " bytes).\r\n"
  | openingWhole path total =>
    bytes "150 Opening binary mode data connection for \"" ++ path ++ bytes "\" (" ++
      showInt total ++ bytes " bytes).\r\n"
  | openingUpload path =>
    bytes "150 Opening binary mode data connection for \"" ++ path ++ bytes "\".\r\n"
  | passwordRequired name => bytes "331 Password required for \"" ++ name ++ bytes "\"\r\n"
  | passwordOk => bytes "230 Password OK. Current directory is " ++ ftpSrvRoot ++ bytes "\r\n"
  | transferComplete => bytes "226 Transfer complete.\r\n"
  | typeBinary => bytes "200 Type set to binary.\r\n"
  | typeAscii => bytes "200 Type set to ascii.\r\n"
  | finished => bytes "226 Finished.\r\n"
  | notRegular path => bytes "550 \"" ++ path ++ bytes "\" : not a regular file\r\n"
  | cannotWrite path => bytes "550 Cannot open \"" ++ path ++ bytes "\" for writing.\r\n"
  | sizeIs numBytes => bytes "213 " ++ showInt numBytes ++ bytes "\r\n"
  | noMdtm => bytes "550 \"/\" : not a regular file\r\n"
  | unixType => bytes "215 UNIX Type: L8\r\n"
  | currentDirectory dir => bytes "257 \"" ++ dir ++ bytes "\" is current directory.\r\n"
  | changedTo path => bytes "250 Changed to directory \"" ++ path ++ bytes "\"\r\n"
  | cannotOpen => bytes "425 Can't open data connection.\r\n"
  | portSuccessful => bytes "200 Port Command Successful.\r\n"
  | sendTransfer => bytes "350 Send RETR or STOR to start transfert.\r\n"
  | dirCreated path => bytes "257 directory \"" ++ path ++ bytes "\" was successfully created.\r\n"
  | fileExists path => bytes "550 File \"" ++ path ++ bytes "\" exists.\r\n"
  | fileDeleted path => bytes "250 file \"" ++ path ++ bytes "\" was successfully deleted.\r\n"
  | noSuchFile path => bytes "550 Not such file or directory: " ++ path ++ bytes ".\r\n"
  | dirDeleted path => bytes "257 directory \"" ++ path ++ bytes "\" was successfully deleted.\r\n"
  | noSuchDir path => bytes "550 Directory \"" ++ path ++ bytes "\" doesn't exist.\r\n"
  | enteringPassive addr port =>
    bytes "227 Entering passive mode (" ++ showNat (addr &&& 0xff).toNat ++ bytes "," ++
      showNat (addr >>> 8 &&& 0xff).toNat ++ bytes "," ++
      showNat (addr >>> 16 &&& 0xff).toNat ++ bytes "," ++
      showNat (addr >>> 24 &&& 0xff).toNat ++ bytes "," ++
      showNat (port / 256).toNat ++ bytes "," ++ showNat (port % 256).toNat ++ bytes ")\r\n"
  | noFeatures => bytes "211 No-features\r\n"
  | adios => bytes "221 Adios!\r\n"
  | notImplemented => bytes "502 Not Implemented yet.\r\n"
  | listFailed => bytes "500 Internal Server Error\r\n"
  | simpleListFailed => bytes "500 Internal Error\r\n"

/-- What `vsnprintf` stores of a reply in its 256 bytes. -/
def storedReply (text : Bytes) : Bytes := text.take 255

def replyCode : Bytes → Option Nat
  | a :: b :: c :: d :: _ =>
    if isdigit a ∧ isdigit b ∧ isdigit c ∧ d = byte ' ' then
      some (100 * (a.toNat - 48) + 10 * (b.toNat - 48) + (c.toNat - 48))
    else none
  | _ => none

@[simp] def Reply.code : Reply → Nat
  | openingList | openingPartial _ _ _ | openingWhole _ _ | openingUpload _ => 150
  | typeBinary | typeAscii | portSuccessful => 200
  | noFeatures => 211
  | sizeIs _ => 213
  | unixType => 215
  | adios => 221
  | transferComplete | finished => 226
  | enteringPassive _ _ => 227
  | passwordOk => 230
  | changedTo _ | fileDeleted _ => 250
  | currentDirectory _ | dirCreated _ | dirDeleted _ => 257
  | passwordRequired _ => 331
  | sendTransfer => 350
  | cannotOpen => 425
  | listFailed | simpleListFailed => 500
  | notImplemented => 502
  | notRegular _ | cannotWrite _ | noMdtm | fileExists _ | noSuchFile _ | noSuchDir _ => 550

@[simp] theorem replyCode_text (reply : Reply) : replyCode reply.text = some reply.code := by
  cases reply <;> rfl

@[simp] theorem Reply.text_ne_nil (reply : Reply) : reply.text ≠ [] := by
  intro hnil
  have hcode := replyCode_text reply
  simp [hnil, replyCode] at hcode

end FtpServer
