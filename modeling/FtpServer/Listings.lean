import FtpServer.Lengths
import FtpServer.Transfers
import FtpServer.Library.Components
import FtpServer.Library.Printing

/-! What LIST says of a directory, read back line by line. The year of a FAT date has seven
bits and the size is unsigned; the listing takes six bits and prints the size as an `int`. -/

namespace FtpServer
open Interaction CString Components

structure ListedEntry where
  isDir : Bool
  size : Int
  day : Nat
  month : Nat
  year : Nat
  name : Bytes
  deriving DecidableEq, Repr

section Records

def FilInfo.isDir (fno : FilInfo) : Bool := decide (fno.fattrib &&& amDir ≠ 0)

def fatDay (fdate : UInt16) : Nat := fdate.toNat % 32
def fatMonth (fdate : UInt16) : Nat := fdate.toNat / 32 % 16
def fatYear (fdate : UInt16) : Nat := 1980 + fdate.toNat / 512

def ValidDate (fdate : UInt16) : Prop :=
  1 ≤ fatDay fdate ∧ 1 ≤ fatMonth fdate ∧ fatMonth fdate ≤ 12

instance (fdate : UInt16) : Decidable (ValidDate fdate) := inferInstanceAs (Decidable (_ ∧ _))

def FilInfo.recorded (fno : FilInfo) : ListedEntry where
  isDir := fno.isDir
  size := if fno.isDir then 0 else fno.fsize.toNat
  day := fatDay fno.fdate
  month := fatMonth fno.fdate
  year := fatYear fno.fdate
  name := fno.fname

end Records

section Reading

def readInt : Bytes → Int
  | [] => 0
  | b :: s => if b = byte '-' then -(digitsValue 0 s : Int) else digitsValue 0 (b :: s)

theorem readInt_showNat (n : Nat) : readInt (showNat n) = n := by
  obtain ⟨hne, hdigits, hvalue⟩ := decimal_showNat n
  obtain ⟨b, s, hs⟩ := List.exists_cons_of_ne_nil hne
  have hminus : b ≠ byte '-' := by
    rintro rfl
    have hdigit := hdigits (byte '-') (by simp [hs])
    exact absurd hdigit (by decide)
  rw [hs] at hvalue ⊢
  rw [readInt, if_neg hminus, hvalue]

@[simp] theorem readInt_showInt (i : Int) : readInt (showInt i) = i := by
  cases i with
  | ofNat n => exact readInt_showNat n
  | negSucc n =>
    rw [showInt, readInt, if_pos rfl, (decimal_showNat (n + 1)).2.2]
    rfl

/-- The fields of a line are set apart by spaces; the last two bytes end it. -/
def readLine (line : Bytes) : Option ListedEntry :=
  match comps (byte ' ') (line.take (line.length - 2)) with
  | [mode, _, _, _, size, mon, day, year, name] =>
    some {
      isDir := decide (mode.head? = some (byte 'd'))
      size := readInt size
      day := digitsValue 0 day
      month := months.idxOf mon + 1
      year := digitsValue 0 year
      name := name }
  | _ => none

end Reading

section Fields

theorem comps_space (a b : Bytes) :
    comps (byte ' ') (a ++ (bytes " " ++ b)) = comps (byte ' ') a ++ comps (byte ' ') b :=
  comps_append_sep (byte ' ') a b

theorem comps_padLeft {s : Bytes} (hne : s ≠ []) (hspace : byte ' ' ∉ s) (width : Nat) :
    comps (byte ' ') (padLeft width s) = [s] := by
  unfold padLeft
  induction width - s.length with
  | zero => simp [comps_of_not_mem hspace, hne]
  | succ k ih => rwa [List.replicate_succ, List.cons_append, comps_cons_sep]

theorem space_not_mem_showNat (n : Nat) : byte ' ' ∉ showNat n := by
  intro hmem
  exact absurd (isdigit_of_mem_showNat hmem) (by decide)

theorem showInt_field (i : Int) : showInt i ≠ [] ∧ byte ' ' ∉ showInt i := by
  cases i with
  | ofNat n => exact ⟨showNat_ne_nil n, space_not_mem_showNat n⟩
  | negSucc n =>
    refine ⟨by simp [showInt], ?_⟩
    rw [showInt, List.mem_cons, not_or]
    exact ⟨by decide, space_not_mem_showNat (n + 1)⟩

theorem month_field {i : Nat} (h : i < 12) :
    months.getD i [] ≠ [] ∧ byte ' ' ∉ months.getD i [] ∧ months.idxOf (months.getD i []) = i := by
  interval_cases i <;> decide

end Fields

section Dates

theorem listDate_month_lt (fdate : UInt16) : (listDate fdate).2.1 < months.length := by
  unfold listDate
  dsimp only
  split
  · exact Nat.succ_pos 12
  · rename_i hmon
    have hle := UInt16.le_iff_toNat_le.mp (UInt16.not_lt.mp hmon)
    exact Nat.lt_succ_of_le hle

theorem toNat_field (n : UInt16) {shift bits : Nat} (hshift : shift < 16) (hbits : bits < 16) :
    (n >>> UInt16.ofNat shift &&& UInt16.ofNat (2 ^ bits - 1)).toNat =
      n.toNat / 2 ^ shift % 2 ^ bits := by
  have hpow : 2 ^ bits ≤ 2 ^ 15 := Nat.pow_le_pow_right (by decide) (by omega)
  have hmask : (UInt16.ofNat (2 ^ bits - 1)).toNat = 2 ^ bits - 1 := by
    rw [UInt16.toNat_ofNat', Nat.mod_eq_of_lt (by omega)]
  have hplace : (UInt16.ofNat shift).toNat % 16 = shift := by
    rw [UInt16.toNat_ofNat']
    omega
  rw [UInt16.toNat_and, UInt16.toNat_shiftRight, hmask, hplace, Nat.and_two_pow_sub_one_eq_mod,
    Nat.shiftRight_eq_div_pow]

theorem listDate_valid {fdate : UInt16} (h : ValidDate fdate) :
    listDate fdate = (fatDay fdate, fatMonth fdate - 1, 1980 + fdate.toNat / 512 % 64) := by
  obtain ⟨-, hpos, hle⟩ := h
  have hday : (fdate &&& 0x1f).toNat = fatDay fdate := by
    rw [UInt16.toNat_and]
    exact Nat.and_two_pow_sub_one_eq_mod fdate.toNat 5
  have hmonth : (fdate >>> 5 &&& 0x0f).toNat = fatMonth fdate :=
    @toNat_field fdate 5 4 (by decide) (by decide)
  have hyear : (fdate >>> 9 &&& 0x3f).toNat = fdate.toNat / 512 % 64 :=
    @toNat_field fdate 9 6 (by decide) (by decide)
  have hone : (1 : UInt16).toNat = 1 := rfl
  have hepoch : (1980 : UInt16).toNat = 1980 := rfl
  have hmon : ((fdate >>> 5 &&& 0x0f) - 1).toNat = fatMonth fdate - 1 := by
    rw [UInt16.toNat_sub_of_le _ _ (UInt16.le_iff_toNat_le.mpr (by omega)), hmonth, hone]
  have hsmall : ¬(fdate >>> 5 &&& 0x0f) - 1 > 12 := by
    have htwelve : (12 : UInt16).toNat = 12 := rfl
    rw [gt_iff_lt, UInt16.lt_iff_toNat_lt]
    omega
  have hsum : ((fdate >>> 9 &&& 0x3f) + 1980).toNat = 1980 + fdate.toNat / 512 % 64 := by
    rw [UInt16.toNat_add]
    omega
  unfold listDate
  simp only [hsmall, if_false, hday, hmon, hsum]

end Dates

section Lines

def FilInfo.mode (fno : FilInfo) : Bytes :=
  if fno.isDir then bytes "drw-r--r--" else bytes "-rw-r--r--"

def FilInfo.printedSize (fno : FilInfo) : Int := if fno.isDir then 0 else intOfDword fno.fsize

theorem listLine_columns {fno : FilInfo} (hdate : ValidDate fno.fdate) :
    listLine fno = fno.mode ++ (bytes " " ++ (bytes "1 root root" ++ (bytes " " ++
      (padLeft 9 (showInt fno.printedSize) ++ (bytes " " ++
      (padLeft 3 (months.getD (fatMonth fno.fdate - 1) []) ++ (bytes " " ++
      (padLeft 2 (showNat (fatDay fno.fdate)) ++ (bytes " " ++
      (padLeft 4 (showNat (1980 + fno.fdate.toNat / 512 % 64)) ++ (bytes " " ++
      fno.fname))))))))))) ++ bytes "\r\n" := by
  have hdir : bytes "drw-r--r-- 1 root root " =
      bytes "drw-r--r--" ++ bytes " " ++ bytes "1 root root" ++ bytes " " := by decide
  have hfile : bytes "-rw-r--r-- 1 root root " =
      bytes "-rw-r--r--" ++ bytes " " ++ bytes "1 root root" ++ bytes " " := by decide
  have hattr : fno.fattrib &&& amDir ≠ 0 ↔ fno.isDir = true := decide_eq_true_iff.symm
  unfold listLine FilInfo.mode FilInfo.printedSize
  rw [listDate_valid hdate, hdir, hfile]
  simp only [hattr, List.append_assoc]
  split <;> rfl

theorem comps_listLine {fno : FilInfo} (hname : fno.fname ≠ []) (hdate : ValidDate fno.fdate) :
    comps (byte ' ') ((listLine fno).take ((listLine fno).length - 2)) =
      [fno.mode, bytes "1", bytes "root", bytes "root", showInt fno.printedSize,
        months.getD (fatMonth fno.fdate - 1) [], showNat (fatDay fno.fdate),
        showNat (1980 + fno.fdate.toNat / 512 % 64), fno.fname] := by
  have hend : (bytes "\r\n").length = 2 := by decide
  have hmonth := month_field (i := fatMonth fno.fdate - 1) (by have := hdate.2; omega)
  have hmode : comps (byte ' ') fno.mode = [fno.mode] := by
    unfold FilInfo.mode
    split <;> decide
  have hroot : comps (byte ' ') (bytes "1 root root") =
      [bytes "1", bytes "root", bytes "root"] := by decide
  have hfname : comps (byte ' ') fno.fname = [fno.fname] := by
    rw [comps_of_not_mem fno.no_space, if_neg hname]
  have hsize := showInt_field fno.printedSize
  rw [listLine_columns hdate, List.length_append, hend, Nat.add_sub_cancel, List.take_left]
  simp only [comps_space, hmode, hroot, hfname, comps_padLeft hsize.1 hsize.2,
    comps_padLeft hmonth.1 hmonth.2.1, comps_padLeft (showNat_ne_nil _) (space_not_mem_showNat _)]
  rfl

theorem readLine_listLine {fno : FilInfo} (hname : fno.fname ≠ []) (hdate : ValidDate fno.fdate) :
    readLine (listLine fno) = some { fno.recorded with
      size := fno.printedSize
      year := 1980 + fno.fdate.toNat / 512 % 64 } := by
  have hmonth := month_field (i := fatMonth fno.fdate - 1) (by have := hdate.2; omega)
  have hpos := hdate.2.1
  have hdir : decide (fno.mode.head? = some (byte 'd')) = fno.isDir := by
    unfold FilInfo.mode
    cases fno.isDir <;> decide
  rw [readLine, comps_listLine hname hdate]
  simp only [hdir, readInt_showInt, (decimal_showNat _).2.2, hmonth.2.2, FilInfo.recorded]
  rw [Nat.sub_add_cancel hpos]

theorem readLine_iff {fno : FilInfo} (hname : fno.fname ≠ []) (hdate : ValidDate fno.fdate) :
    readLine (listLine fno) = some fno.recorded ↔
      fatYear fno.fdate < 2044 ∧ (fno.isDir ∨ fno.fsize.toNat < 2 ^ 31) := by
  have hsize : fno.printedSize = fno.recorded.size ↔ fno.isDir ∨ fno.fsize.toNat < 2 ^ 31 := by
    have hint := intOfDword_eq fno.fsize
    have hlt := fno.fsize.toNat_lt
    unfold FilInfo.printedSize FilInfo.recorded
    cases fno.isDir with
    | true => simp
    | false =>
      simp only [Bool.false_eq_true, if_false, false_or]
      split at hint <;> omega
  have hyear : 1980 + fno.fdate.toNat / 512 % 64 = fatYear fno.fdate ↔
      fatYear fno.fdate < 2044 := by
    have hlt := fno.fdate.toNat_lt
    unfold fatYear
    omega
  rw [readLine_listLine hname hdate, Option.some.injEq, ← hsize, ← hyear]
  constructor
  · intro h
    exact ⟨congrArg ListedEntry.year h, congrArg ListedEntry.size h⟩
  · rintro ⟨hy, hs⟩
    rw [hy, hs]
    rfl

end Lines

section Runs

def noEntry : FilInfo where
  fsize := 0
  fdate := 0
  fattrib := 0
  fname := []
  fname_length := by decide
  no_space := by decide

/-- An environment in which `f_readdir` gives the entries that are left one by one, and then
none; replies take none of them. -/
structure ReadsEntries {W : Type} (step : W → CallEvent → W → Prop) (left : W → List FilInfo) :
    Prop where
  ends : ∀ w, left w = [] → (∃ answer u, step w ⟨.fReaddir, answer⟩ u) ∧
    ∀ answer u, step w ⟨.fReaddir, answer⟩ u → EndsListing answer
  gives : ∀ w fno rest, left w = fno :: rest → (∃ answer u, step w ⟨.fReaddir, answer⟩ u) ∧
    ∀ answer u, step w ⟨.fReaddir, answer⟩ u → answer = (.ok, fno) ∧ left u = rest
  replies : ∀ w via sock text, (∃ (sent : Int) (u : W), step w ⟨.reply via sock text, sent⟩ u) ∧
    ∀ (sent : Int) (u : W), step w ⟨.reply via sock text, sent⟩ u → left u = left w

theorem ReadsEntries.total_listLoop {W : Type} {step : W → CallEvent → W → Prop}
    {left : W → List FilInfo} (hreads : ReadsEntries step left) {line : FilInfo → Bytes}
    (hline : ∀ fno, line fno ≠ []) (via : Operand) (sock : Int) {fuel : Nat} {w : W}
    (hfuel : (left w).length < fuel) (res : Int) :
    Total step (listLoop line via sock fuel res) w (fun _ t _ => ∃ entries last,
      t = listTrace line via sock entries last ∧
      entries.map Prod.fst = (left w).takeWhile (fun fno => fno.fname ≠ [])) := by
  induction fuel generalizing w res with
  | zero => omega
  | succ fuel ih =>
    unfold listLoop
    rw [total_bind, total_call]
    cases hleft : left w with
    | nil =>
      obtain ⟨hsome, hall⟩ := hreads.ends w hleft
      refine ⟨hsome, fun answer u hstep => ?_⟩
      have hends : answer.1 ≠ .ok ∨ answer.2.fname = [] := hall answer u hstep
      simp only [next_ok, hends, if_true, total_pure]
      exact ⟨[], answer, rfl, rfl⟩
    | cons fno rest =>
      obtain ⟨hsome, hall⟩ := hreads.gives w fno rest hleft
      refine ⟨hsome, fun answer u hstep => ?_⟩
      obtain ⟨rfl, hrest⟩ := hall answer u hstep
      by_cases hname : fno.fname = []
      · simp only [next_ok, hname, or_true, if_true, total_pure]
        exact ⟨[], (.ok, fno), rfl, by simp [hname]⟩
      · obtain ⟨hsent, hkeeps⟩ := hreads.replies u via sock (line fno)
        have hlen : 0 < (line fno).length := List.length_pos_iff.mpr (hline fno)
        have hshort : rest.length < fuel := by simpa [hleft] using hfuel
        simp only [next_ok, hname, ne_eq, not_true_eq_false, or_self, if_false, total_bind,
          doSendReply, hlen, if_true, total_call, total_pure]
        refine ⟨hsent, fun sent x hreply => ?_⟩
        have hleft' : left x = rest := (hkeeps sent x hreply).trans hrest
        refine (ih (w := x) (by rwa [hleft']) 0).mono ?_
        rintro y t r ⟨entries, last, rfl, hentries⟩
        refine ⟨(fno, sent) :: entries, last, rfl, ?_⟩
        rw [List.map_cons, hentries, hleft', List.takeWhile_cons_of_pos (by simpa using hname)]

@[simp] theorem repliesIn_listTrace (line : FilInfo → Bytes) (via : Operand) (sock : Int)
    (entries : List (FilInfo × Int)) (last : FResult × FilInfo) :
    repliesIn (listTrace line via sock entries last) =
      (entries.map Prod.fst).map fun entry => (sock, line entry) := by
  induction entries with
  | nil => rfl
  | cons entry entries ih => simp [listTrace, ih]

theorem smooth_readsEntries : ReadsEntries smoothStep Disk.listing := by
  refine ⟨fun disk hend => ⟨⟨(.ok, noEntry), disk, rfl, .inl ⟨rfl, hend, rfl, rfl⟩⟩, ?_⟩,
    fun disk fno rest hnext => ⟨⟨(.ok, fno), { disk with listing := rest }, rfl,
      .inr (.inl ⟨rfl, rest, hnext, rfl⟩)⟩, ?_⟩,
    fun disk via sock text => ⟨⟨0, disk, trivial, Int.natCast_nonneg _, rfl⟩, ?_⟩⟩
  · rintro answer u ⟨hok, ⟨-, -, hname, -⟩ | ⟨-, rest, hcons, -⟩ | ⟨hfailed, -⟩⟩
    · exact .inr hname
    · simp [hend] at hcons
    · exact absurd hok hfailed
  · rintro answer u ⟨hok, ⟨-, hnil, -⟩ | ⟨-, rest', hcons, rfl⟩ | ⟨hfailed, -⟩⟩
    · simp [hnext] at hnil
    · obtain ⟨hfno, hrest⟩ := List.cons.inj (hnext.symm.trans hcons)
      exact ⟨Prod.ext hok hfno.symm, hrest.symm⟩
    · exact absurd hok hfailed
  · rintro sent u ⟨-, -, rfl⟩
    rfl

end Runs

/-- The name `do_full_list` opens. -/
def trimSlash (name : Bytes) : Bytes :=
  if 1 < name.length ∧ name.getLast? = some slash then name.dropLast else name

theorem doFullList_eq (fuel : Nat) (name : Bytes) (via : Operand) (sock : Int) :
    doFullList fuel name via sock = (do
      let rc ← fOpendir (trimSlash name)
      if rc ≠ .ok then do
        doSendReply via sock Reply.listFailed.text
        pure (trimSlash name, -1)
      else do
        let res ← listLoop listLine via sock fuel (-1)
        pure (trimSlash name, res)) := rfl

theorem smooth_opendir {disk : Disk} {path : Bytes} {dir : Directory}
    (hdir : disk.dirs path = some dir) (rc : FResult) (u : Disk) :
    smoothStep disk ⟨.fOpendir path, rc⟩ u ↔
      rc = .ok ∧ u = { disk with listing := dir.entries } := by
  by_cases hrc : rc = .ok <;> simp [smoothStep, diskStep, Smooth, Disk.answers, hdir, hrc]

theorem total_doFullList {disk : Disk} {name : Bytes} {dir : Directory} {fuel : Nat}
    (via : Operand) (sock : Int) (hdir : disk.dirs (trimSlash name) = some dir)
    (hfuel : dir.entries.length < fuel) :
    Total smoothStep (doFullList fuel name via sock) disk (fun _ t _ =>
      repliesIn t = dir.entries.map fun entry => (sock, listLine entry)) := by
  rw [doFullList_eq, total_bind, total_call_unique (smooth_opendir hdir), next_ok,
    if_neg (by simp), total_bind]
  refine (smooth_readsEntries.total_listLoop (w := { disk with listing := dir.entries })
    listLine_ne_nil via sock hfuel (-1)).mono ?_
  rintro u t r ⟨entries, last, rfl, hentries⟩
  have hall : dir.entries.takeWhile (fun fno => fno.fname ≠ []) = dir.entries :=
    List.takeWhile_eq_self_iff.mpr fun entry hentry => by simpa using dir.named entry hentry
  have hsent : entries.map Prod.fst = dir.entries := hentries.trans hall
  cases r <;> simp [hsent]

/-- A line for each entry, in their order, none longer than the reply buffer holds; read back,
each tells what its entry says. -/
def Faithful (sock : Int) (entries : List FilInfo) (t : List CallEvent) : Prop :=
  ∃ lines : List Bytes, repliesIn t = lines.map (fun line => (sock, line)) ∧
    (∀ line ∈ lines, line.length ≤ 255) ∧
    lines.map readLine = entries.map (fun entry => some entry.recorded) ∧
    ∀ entry ∈ entries, (listDate entry.fdate).2.1 < months.length

theorem faithful_iff {sock : Int} {entries : List FilInfo} {t : List CallEvent}
    (hnamed : ∀ entry ∈ entries, entry.fname ≠ [])
    (hdates : ∀ entry ∈ entries, ValidDate entry.fdate)
    (hlines : repliesIn t = entries.map fun entry => (sock, listLine entry)) :
    Faithful sock entries t ↔
      ∀ entry ∈ entries, fatYear entry.fdate < 2044 ∧
        (entry.isDir ∨ entry.fsize.toNat < 2 ^ 31) := by
  have hread : (entries.map listLine).map readLine =
      entries.map (fun entry => some entry.recorded) ↔
      ∀ entry ∈ entries, fatYear entry.fdate < 2044 ∧
        (entry.isDir ∨ entry.fsize.toNat < 2 ^ 31) := by
    rw [List.map_map, List.map_inj_left]
    exact forall₂_congr fun entry hentry => readLine_iff (hnamed entry hentry) (hdates entry hentry)
  rw [← hread]
  constructor
  · rintro ⟨lines, hsent, -, hback, -⟩
    have hinj : Function.Injective fun line : Bytes => (sock, line) := Prod.mk_right_injective sock
    have hsame : (entries.map listLine).map (fun line => (sock, line)) =
        lines.map (fun line => (sock, line)) := by
      rw [← hsent, hlines, List.map_map]
      rfl
    rw [List.map_injective_iff.mpr hinj hsame]
    exact hback
  · intro hback
    refine ⟨entries.map listLine, ?_, ?_, hback, fun entry _ => listDate_month_lt entry.fdate⟩
    · rw [hlines, List.map_map]
      rfl
    · simpa using fun entry _ => Nat.le_of_lt_succ (length_listLine_lt entry)

/-- On a directory with valid dates, the listing says what its entries say exactly when no year
is 2044 or later and no file has 2 GiB or more. -/
theorem list_faithful_iff {disk : Disk} {name : Bytes} {dir : Directory} {fuel : Nat}
    (via : Operand) (sock : Int) (hdir : disk.dirs (trimSlash name) = some dir)
    (hdates : ∀ entry ∈ dir.entries, ValidDate entry.fdate) (hfuel : dir.entries.length < fuel) :
    Total smoothStep (doFullList fuel name via sock) disk
        (fun _ t _ => Faithful sock dir.entries t) ↔
      ∀ entry ∈ dir.entries, fatYear entry.fdate < 2044 ∧
        (entry.isDir ∨ entry.fsize.toNat < 2 ^ 31) := by
  have hsent := total_doFullList via sock hdir hfuel
  constructor
  · intro h
    obtain ⟨t, r, u, hrun, hf, hlines⟩ := hsent.exists_run
    exact (faithful_iff dir.named hdates hlines).mp (h.runs hrun hf)
  · intro hcond
    exact hsent.mono fun u t r hlines => (faithful_iff dir.named hdates hlines).mpr hcond

def twoGiB : FilInfo where
  fsize := 0x80000000
  fdate := 0x0021
  fattrib := 0
  fname := bytes "big"
  fname_length := by decide
  no_space := by decide

def largeFileDir : Directory := ⟨[twoGiB], by decide⟩

def largeFileDisk : Disk where
  files := fun _ => none
  dirs := fun _ => some largeFileDir
  opened := none
  listing := []
  incoming := []
  small := nofun

/-- A file of the last day of 2043, the latest the listing can date, of one byte less than 2 GiB. -/
def lastDay : FilInfo where
  fsize := 0x7FFFFFFF
  fdate := 0x7F9F
  fattrib := 0
  fname := bytes "log.txt"
  fname_length := by decide
  no_space := by decide

def subDirectory : FilInfo where
  fsize := 0
  fdate := 0x0021
  fattrib := amDir
  fname := bytes "docs"
  fname_length := by decide
  no_space := by decide

def mixedDir : Directory := ⟨[lastDay, subDirectory], by decide⟩

def grownDir : Directory := ⟨[lastDay, subDirectory, twoGiB], by decide⟩

def mixedDisk : Disk where
  files := fun _ => none
  dirs := fun path => if path = bytes "/now" then some mixedDir else
    if path = bytes "/later" then some grownDir else none
  opened := none
  listing := []
  incoming := []
  small := nofun

theorem list_faithful_iff_mixed :
    Total smoothStep (doFullList 4 (bytes "/now/") .pasvSockfd 2) mixedDisk
        (fun _ t _ => Faithful 2 mixedDir.entries t) ∧
      ¬Total smoothStep (doFullList 4 (bytes "/later/") .pasvSockfd 2) mixedDisk
        (fun _ t _ => Faithful 2 grownDir.entries t) :=
  ⟨(list_faithful_iff .pasvSockfd 2 rfl (by decide) (by decide)).mpr (by decide),
    (list_faithful_iff .pasvSockfd 2 rfl (by decide) (by decide)).not.mpr (by decide)⟩

theorem large_file_negative :
    ¬∀ (disk : Disk) (name : Bytes) (dir : Directory) (fuel : Nat) (via : Operand) (sock : Int),
      disk.dirs (trimSlash name) = some dir →
      (∀ entry ∈ dir.entries, ValidDate entry.fdate) → dir.entries.length < fuel →
      Total smoothStep (doFullList fuel name via sock) disk
        (fun _ t _ => Faithful sock dir.entries t) := by
  intro h
  have hfaithful := h largeFileDisk (bytes "/") largeFileDir 2 .pasvSockfd 2 rfl (by decide)
    (by decide)
  have hdir : largeFileDisk.dirs (trimSlash (bytes "/")) = some largeFileDir := rfl
  have hturns : largeFileDir.entries.length < 2 := by decide
  obtain ⟨t, r, u, hrun, hf, hlines⟩ := (total_doFullList .pasvSockfd 2 hdir hturns).exists_run
  have hsmall := (faithful_iff largeFileDir.named (by decide) hlines).mp (hfaithful.runs hrun hf)
  exact absurd hsmall (by decide)

end FtpServer
