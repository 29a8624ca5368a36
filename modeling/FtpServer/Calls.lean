import FtpServer.Library.Interaction
import FtpServer.Library.CString

/-! What the server calls: the lwIP socket layer, FatFs, the heap, and the two
pieces of hidden state it reads (`strtok`'s saved position, `my_ipaddr`).
Descriptors are C `int`s, -1 standing for failure. The four calls that act on an
open connection also name the variable their descriptor was read from. -/

namespace FtpServer
open Interaction CString

inductive FResult where
  | ok | diskErr | intErr | notReady | noFile | noPath | invalidName | denied | exist
  | invalidObject | writeProtected | invalidDrive | notEnabled | noFilesystem | mkfsAborted
  | timeout | locked | notEnoughCore | tooManyOpenFiles | invalidParameter
  deriving DecidableEq, Repr

def faRead : UInt8 := 0x01
def faWrite : UInt8 := 0x02
def faOpenAlways : UInt8 := 0x10
def amDir : UInt8 := 0x10

/-- The fields of `FILINFO` that the listings print. `get_fileinfo` writes an 8.3 name
without the padding. -/
structure FilInfo where
  fsize : UInt32
  fdate : UInt16
  fattrib : UInt8
  fname : Bytes
  fname_length : fname.length ≤ 12
  no_space : byte ' ' ∉ fname
  deriving DecidableEq, Repr

structure SelectResult where
  ret : Int
  isset : Bool
  deriving DecidableEq, Repr

structure AcceptResult where
  sock : Int
  remote : UInt32
  deriving DecidableEq, Repr

/-- The variable a descriptor was read from: `conn->sockfd`, `conn->pasv_sockfd`,
or the listening `sockfd` of PASV. -/
inductive Operand where
  | sockfd | pasvSockfd | localSockfd
  deriving DecidableEq, Repr

inductive Call where
  | malloc
  | strtokSaved
  | myIpaddr
  | socket
  | bind (sock : Int) (port : UInt16)
  | listen (sock : Int) (backlog : Int)
  | accept (sock : Int)
  | connect (sock : Int) (addr : UInt32) (port : UInt16)
  | select (via : Operand) (sock : Int)
  | recv (via : Operand) (sock : Int) (len : Nat)
  | send (via : Operand) (sock : Int) (data : Bytes)
  | reply (via : Operand) (sock : Int) (text : Bytes)
  | close (via : Operand) (sock : Int)
  | fOpen (path : Bytes) (mode : UInt8)
  | fSize
  | fRead (btr : Nat)
  | fWrite (data : Bytes)
  | fLseek (ofs : UInt32)
  | fClose
  | fOpendir (path : Bytes)
  | fReaddir
  | fMkdir (path : Bytes)
  | fUnlink (path : Bytes)
  deriving DecidableEq, Repr

/-- `recv` answers `none` for -1 and `some []` for 0; `f_read` and `f_write` answer
with their result and what they moved. -/
@[reducible] def Call.Answer : Call → Type
  | malloc => Bool
  | strtokSaved => Option Bytes
  | myIpaddr => UInt32
  | accept _ => AcceptResult
  | select _ _ => SelectResult
  | recv _ _ _ => Option Bytes
  | fOpen _ _ | fLseek _ | fClose | fOpendir _ | fMkdir _ | fUnlink _ => FResult
  | fSize => UInt32
  | fRead _ => FResult × Bytes
  | fWrite _ => FResult × Nat
  | fReaddir => FResult × FilInfo
  | socket | bind _ _ | listen _ _ | connect _ _ _ | send _ _ _ | reply _ _ _ | close _ _ => Int

section Answers

/-! Every call has an answer; the instances spare `simp` a search for each. -/

instance nonempty_int : Nonempty Int := ⟨0⟩
instance nonempty_dword : Nonempty UInt32 := ⟨0⟩
instance : Nonempty FResult := ⟨.ok⟩
instance : Nonempty SelectResult := ⟨⟨0, false⟩⟩
instance : Nonempty AcceptResult := ⟨⟨0, 0⟩⟩
instance : Nonempty (FResult × Bytes) := ⟨.ok, []⟩
instance : Nonempty (FResult × Nat) := ⟨.ok, 0⟩
instance : Nonempty (Option Bytes) := ⟨none⟩

end Answers

inductive Buffer where
  | ftpBuf | spareBuf | currentdir
  deriving DecidableEq, Repr

/-- Undefined behaviour of the C code: a NULL pointer read as a string, or a store
past the end of an array. -/
inductive Fault where
  | nullPointer
  | overflow (buffer : Buffer)
  deriving DecidableEq, Repr

abbrev Ftp := Prog Call Call.Answer Fault
abbrev CallEvent := Event Call Call.Answer

abbrev malloc : Ftp Bool := call Call.malloc
abbrev strtokSaved : Ftp (Option Bytes) := call Call.strtokSaved
abbrev myIpaddr : Ftp UInt32 := call Call.myIpaddr
abbrev socket : Ftp Int := call Call.socket
abbrev bindSocket (sock : Int) (port : UInt16) : Ftp Int := call (Call.bind sock port)
abbrev listen (sock : Int) (backlog : Int) : Ftp Int := call (Call.listen sock backlog)
abbrev accept (sock : Int) : Ftp AcceptResult := call (Call.accept sock)
abbrev connect (sock : Int) (addr : UInt32) (port : UInt16) : Ftp Int :=
  call (Call.connect sock addr port)
abbrev select (via : Operand) (sock : Int) : Ftp SelectResult := call (Call.select via sock)
abbrev recv (via : Operand) (sock : Int) (len : Nat) : Ftp (Option Bytes) :=
  call (Call.recv via sock len)
abbrev send (via : Operand) (sock : Int) (data : Bytes) : Ftp Int := call (Call.send via sock data)
abbrev close (via : Operand) (sock : Int) : Ftp Int := call (Call.close via sock)
abbrev fOpen (path : Bytes) (mode : UInt8) : Ftp FResult := call (Call.fOpen path mode)
abbrev fSize : Ftp UInt32 := call Call.fSize
abbrev fRead (btr : Nat) : Ftp (FResult × Bytes) := call (Call.fRead btr)
abbrev fWrite (data : Bytes) : Ftp (FResult × Nat) := call (Call.fWrite data)
abbrev fLseek (ofs : UInt32) : Ftp FResult := call (Call.fLseek ofs)
abbrev fClose : Ftp FResult := call Call.fClose
abbrev fOpendir (path : Bytes) : Ftp FResult := call (Call.fOpendir path)
abbrev fReaddir : Ftp (FResult × FilInfo) := call Call.fReaddir
abbrev fMkdir (path : Bytes) : Ftp FResult := call (Call.fMkdir path)
abbrev fUnlink (path : Bytes) : Ftp FResult := call (Call.fUnlink path)

def deref {α : Type} : Option α → Ftp α
  | none => .fault .nullPointer
  | some a => pure a

def Buffer.size : Buffer → Nat
  | ftpBuf => 512
  | spareBuf => 256
  | currentdir => 512

def strcpy (buffer : Buffer) (s : Bytes) : Ftp Unit :=
  if s.length < buffer.size then pure () else .fault (.overflow buffer)

section Rules
variable {α : Type} {post : List CallEvent → Except Fault α → Prop}
  {postUnit : List CallEvent → Except Fault Unit → Prop}

@[simp] theorem always_deref_none :
    Always (deref (none : Option α)) post ↔ post [] (.error .nullPointer) := always_fault _

@[simp] theorem always_deref_some (a : α) :
    Always (deref (some a)) post ↔ post [] (.ok a) := always_pure a

@[simp] theorem always_strcpy (buffer : Buffer) (s : Bytes) :
    Always (strcpy buffer s) postUnit ↔
      (s.length < buffer.size → postUnit [] (.ok ())) ∧
      (buffer.size ≤ s.length → postUnit [] (.error (.overflow buffer))) := by
  simp [strcpy]

end Rules

end FtpServer
