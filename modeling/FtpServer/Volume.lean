import FtpServer.Cmds

/-! Paths and directories of FatFs (`ff.c`), as it is configured here: no long names, no
relative paths, one volume, code page 1251. A volume is given by its directory tables. -/

namespace FtpServer
open CString

def dde : Byte := 0xe5
def ndde : Byte := 0x05
def amVol : UInt8 := 0x08
def amLfn : UInt8 := 0x0f
def amArc : UInt8 := 0x20
def amMask : UInt8 := 0x3f
def nsLast : UInt8 := 0x04
def nsBody : UInt8 := 0x08
def nsExt : UInt8 := 0x10

/-- `ExCvt`: the capitals of the extended characters. -/
def exCvt : Bytes :=
  [0x80, 0x81, 0x82, 0x82, 0x84, 0x85, 0x86, 0x87, 0x88, 0x89, 0x8a, 0x8b, 0x8c, 0x8d, 0x8e, 0x8f,
   0x80, 0x91, 0x92, 0x93, 0x94, 0x95, 0x96, 0x97, 0x98, 0x99, 0x8a, 0x9b, 0x8c, 0x8d, 0x8e, 0x8f,
   0xa0, 0xa2, 0xa2, 0xa3, 0xa4, 0xa5, 0xa6, 0xa7, 0xa8, 0xa9, 0xaa, 0xab, 0xac, 0xad, 0xae, 0xaf,
   0xb0, 0xb1, 0xb2, 0xb2, 0xa5, 0xb5, 0xb6, 0xb7, 0xa8, 0xb9, 0xaa, 0xbb, 0xa3, 0xbd, 0xbd, 0xaf,
   0xc0, 0xc1, 0xc2, 0xc3, 0xc4, 0xc5, 0xc6, 0xc7, 0xc8, 0xc9, 0xca, 0xcb, 0xcc, 0xcd, 0xce, 0xcf,
   0xd0, 0xd1, 0xd2, 0xd3, 0xd4, 0xd5, 0xd6, 0xd7, 0xd8, 0xd9, 0xda, 0xdb, 0xdc, 0xdd, 0xde, 0xdf,
   0xc0, 0xc1, 0xc2, 0xc3, 0xc4, 0xc5, 0xc6, 0xc7, 0xc8, 0xc9, 0xca, 0xcb, 0xcc, 0xcd, 0xce, 0xcf,
   0xd0, 0xd1, 0xd2, 0xd3, 0xd4, 0xd5, 0xd6, 0xd7, 0xd8, 0xd9, 0xda, 0xdb, 0xdc, 0xdd, 0xde, 0xdf]

/-- What `create_name` rejects in a short name. -/
def illegalChrs : Bytes := bytes "\"*+,:;<=>?[]|" ++ [0x7f]

def isUpper (c : Byte) : Bool := byte 'A' ≤ c && c ≤ byte 'Z'
def isLower (c : Byte) : Bool := byte 'a' ≤ c && c ≤ byte 'z'

/-- FatFs takes both for a separator. -/
def isSeparator (c : Byte) : Bool := c = slash || c = byte '\\'

/-- An entry of a directory table: `DIR_Name`, `DIR_Attr`, the date and size that a listing
prints, and the start cluster (`ld_clust`). -/
structure DirEntry where
  name : Bytes
  attr : UInt8
  wrtDate : UInt16
  fileSize : UInt32
  clust : UInt32
  name_length : name.length = 11
  deriving DecidableEq

/-- The directory table that starts at a cluster, 0 standing for the root; at a number that is
no cluster of the volume there is none. -/
structure Volume where
  table : UInt32 → Option (List DirEntry)

section Tables

/-- `dir_find`: a first byte of 0 ends the table, labels are passed over. -/
def dirFind (fn : Bytes) : List DirEntry → Option DirEntry
  | [] => none
  | dir :: dirs =>
    if dir.name.head? = some 0 then none
    else if dir.attr &&& amVol = 0 ∧ dir.name = fn then some dir
    else dirFind fn dirs

def DirEntry.listed (dir : DirEntry) : Bool :=
  dir.name.head? ≠ some dde && dir.name.head? ≠ some dot && dir.attr &&& amMask ≠ amLfn &&
    dir.attr &&& amMask &&& ~~~amArc ≠ amVol

/-- The copying loop of `get_fileinfo`, from the `i`th byte on. -/
def copyName (i : Nat) : Bytes → Bytes
  | [] => []
  | c :: name =>
    if c = byte ' ' then copyName (i + 1) name
    else (if i = 8 then [dot] else []) ++ (if c = ndde then dde else c) :: copyName (i + 1) name

theorem length_copyName_le (i : Nat) (name : Bytes) :
    (copyName i name).length ≤ name.length + if i ≤ 8 then 1 else 0 := by
  induction name generalizing i with
  | nil => simp [copyName]
  | cons c name ih =>
    have hrest := ih (i + 1)
    unfold copyName
    split
    · simp only [List.length_cons]
      split at hrest <;> split <;> omega
    · simp only [List.length_append, List.length_cons]
      split <;> split at hrest <;> split <;> simp_all <;> omega

theorem space_not_mem_copyName (i : Nat) (name : Bytes) : byte ' ' ∉ copyName i name := by
  induction name generalizing i with
  | nil => simp [copyName]
  | cons c name ih =>
    unfold copyName
    split
    · exact ih (i + 1)
    · rename_i hspace
      have hdot : byte ' ' ≠ dot := by decide
      have hdde : byte ' ' ≠ dde := by decide
      simp only [List.mem_append, List.mem_cons, not_or]
      refine ⟨?_, ?_, ih (i + 1)⟩
      · split <;> simp [hdot]
      · split
        · exact hdde
        · exact fun hsame => hspace hsame.symm

def getFileinfo (dir : DirEntry) : FilInfo where
  fsize := dir.fileSize
  fdate := dir.wrtDate
  fattrib := dir.attr
  fname := cstr (copyName 0 dir.name)
  fname_length := by
    have hcopied := length_copyName_le 0 dir.name
    have hcut := (List.takeWhile_prefix (l := copyName 0 dir.name) (· ≠ 0)).length_le
    rw [dir.name_length] at hcopied
    exact hcut.trans hcopied
  no_space := fun hmem =>
    space_not_mem_copyName 0 dir.name ((List.takeWhile_prefix _).subset hmem)

/-- What `f_readdir` gives of a table, one entry after another. -/
def readable (dirs : List DirEntry) : List FilInfo :=
  ((dirs.takeWhile (fun dir => dir.name.head? ≠ some 0)).filter DirEntry.listed).map getFileinfo

end Tables

section Names

/-- `create_name` while it fills the name: the next place, the end of the part being filled
(8 for the body, 11 for the extension), the case bits, the name. -/
structure NameState where
  i : Nat
  ni : Nat
  b : UInt8
  sfn : Bytes

def nameChar (st : NameState) (c : Byte) : Except FResult NameState :=
  if c = dot ∨ st.ni ≤ st.i then
    if st.ni ≠ 8 ∨ c ≠ dot then .error .invalidName
    else .ok { st with i := 8, ni := 11, b := st.b <<< 2 }
  else
    let b := if 0x80 ≤ c then st.b ||| 3 else st.b
    let c := if 0x80 ≤ c then exCvt.getD (c.toNat - 0x80) 0 else c
    if c ∈ illegalChrs then .error .invalidName
    else if isUpper c then .ok { st with i := st.i + 1, b := b ||| 2, sfn := st.sfn.set st.i c }
    else if isLower c then
      .ok { st with i := st.i + 1, b := b ||| 1, sfn := st.sfn.set st.i (c - 0x20) }
    else .ok { st with i := st.i + 1, b := b, sfn := st.sfn.set st.i c }

def endsSegment (c : Byte) : Bool := c ≤ byte ' ' || isSeparator c

/-- The loop of `create_name`: the character that ended the segment, what stands behind it,
and what was filled. -/
def createNameLoop (st : NameState) : Bytes → Except FResult (Byte × Bytes × NameState)
  | [] => .ok (0, [], st)
  | c :: p => if endsSegment c then .ok (c, p, st) else nameChar st c >>= (createNameLoop · p)

structure Segment where
  fn : Bytes
  nsflag : UInt8
  rest : Bytes

def finishName (c : Byte) (rest : Bytes) (st : NameState) : Except FResult Segment :=
  if st.i = 0 then .error .invalidName
  else
    let b := if st.ni = 8 then st.b <<< 2 else st.b
    .ok {
      fn := if st.sfn.head? = some dde then st.sfn.set 0 ndde else st.sfn
      nsflag := (if c ≤ byte ' ' then nsLast else 0) |||
        (if b &&& 0x03 = 0x01 then nsExt else 0) ||| (if b &&& 0x0c = 0x04 then nsBody else 0)
      rest := rest }

def nameStart : NameState := ⟨0, 8, 0, List.replicate 11 (byte ' ')⟩

def createName (path : Bytes) : Except FResult Segment :=
  match createNameLoop nameStart (path.dropWhile isSeparator) with
  | .error rc => .error rc
  | .ok (c, rest, st) => finishName c rest st

def Segment.last (seg : Segment) : Bool := seg.nsflag &&& nsLast ≠ 0

end Names

section Paths

/-- `dir_sdi` at the start of a table. -/
def dirSdi (v : Volume) (sclust : UInt32) : Except FResult (List DirEntry) :=
  match v.table sclust with
  | none => .error .intErr
  | some dirs => .ok dirs

/-- One turn of the loop of `follow_path`, for a segment of the path; `next` goes on from the
cluster of a sub-directory. -/
def followSegment (v : Volume) (sclust : UInt32) (seg : Segment)
    (next : UInt32 → Except FResult DirEntry) : Except FResult DirEntry :=
  match dirSdi v sclust with
  | .error rc => .error rc
  | .ok dirs =>
    match dirFind seg.fn dirs with
    | none => .error (if seg.last then .noFile else .noPath)
    | some dir =>
      if seg.last then .ok dir
      else if dir.attr &&& amDir = 0 then .error .noPath
      else next dir.clust

/-- The loop of `follow_path`; every turn takes a segment off the path, so the bound on the
turns is not reached (`followLoop_bound`). -/
def followLoop (v : Volume) : Nat → UInt32 → Bytes → Except FResult DirEntry
  | 0, _, _ => .error .intErr
  | n + 1, sclust, path =>
    match createName path with
    | .error rc => .error rc
    | .ok seg => followSegment v sclust seg (followLoop v n · seg.rest)

def stripSeparator : Bytes → Bytes
  | [] => []
  | c :: p => if isSeparator c then p else c :: p

/-- `follow_path` behind the heading separator; `none` is the root itself. -/
def followStripped (v : Volume) : Bytes → Except FResult (Option DirEntry)
  | [] => .ok none
  | c :: p =>
    if c < byte ' ' then .ok none
    else (followLoop v ((c :: p).length + 1) 0 (c :: p)).map some

def followPath (v : Volume) (path : Bytes) : Except FResult (Option DirEntry) :=
  followStripped v (stripSeparator path)

def findColon : Bytes → Option Nat
  | [] => none
  | c :: p =>
    if c = byte ':' then some 0
    else if c < byte '!' then none
    else (findColon p).map (· + 1)

/-- `get_ldnumber`: the path behind the drive number, which can only be 0. -/
def getLdnumber (path : Bytes) : Option Bytes :=
  match findColon path with
  | none => some path
  | some tt => if path[0]? = some (byte '0') ∧ tt = 1 then some (path.drop 2) else none

def openDir (v : Volume) (path : Bytes) : Except FResult (List DirEntry) :=
  match getLdnumber path with
  | none => .error .invalidDrive
  | some path =>
    let opened := do
      match ← followPath v path with
      | none => dirSdi v 0
      | some dir => if dir.attr &&& amDir = 0 then .error .noPath else dirSdi v dir.clust
    opened.mapError fun rc => if rc = .noFile then .noPath else rc

end Paths

end FtpServer
