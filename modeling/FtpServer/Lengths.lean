import FtpServer.Cmds

/-! How long the texts are that go through the 256 bytes of `do_send_reply`. -/

namespace FtpServer
open CString

@[simp] theorem length_padLeft (width : Nat) (s : Bytes) :
    (padLeft width s).length = max width s.length := by
  simp only [padLeft, List.length_append, List.length_replicate]
  omega

theorem length_month_le (mon : Nat) : (months.getD mon []).length ≤ 3 := by
  have hall : ∀ m ∈ months, m.length ≤ 3 := by decide
  by_cases hmon : mon < months.length
  · rw [List.getD_eq_getElem?_getD, List.getElem?_eq_getElem hmon]
    exact hall _ (List.getElem_mem hmon)
  · rw [List.getD_eq_getElem?_getD, List.getElem?_eq_none (by omega)]
    simp

theorem listDate_lt (fdate : UInt16) :
    (listDate fdate).1 < 10 ^ 2 ∧ (listDate fdate).2.2 < 10 ^ 4 := by
  have hday : (fdate &&& 0x1f).toNat < 32 := by
    rw [UInt16.toNat_and]
    exact Nat.and_lt_two_pow _ (by decide : (0x1f : UInt16).toNat < 2 ^ 5)
  have hyear : ((fdate >>> 9) &&& 0x3f).toNat < 64 := by
    rw [UInt16.toNat_and]
    exact Nat.and_lt_two_pow _ (by decide : (0x3f : UInt16).toNat < 2 ^ 6)
  have hsum : (((fdate >>> 9) &&& 0x3f) + 1980).toNat < 10 ^ 4 := by
    rw [UInt16.toNat_add, show (1980 : UInt16).toNat = 1980 from rfl]
    omega
  unfold listDate
  dsimp only
  split
  · constructor
    · dsimp only
      omega
    · dsimp only
      omega
  · refine ⟨?_, hsum⟩
    dsimp only
    omega

theorem showInt_dword_length (n : UInt32) : (showInt (intOfDword n)).length ≤ 11 := by
  have hint := intOfDword_eq n
  have hlt := n.toNat_lt
  apply @showInt_length_le _ 10 (by decide)
  split at hint <;> omega

theorem length_listLine_lt (fno : FilInfo) : (listLine fno).length < 256 := by
  have hname := fno.fname_length
  have hdate := listDate_lt fno.fdate
  have hsize := showInt_dword_length fno.fsize
  have hzero : (showInt 0).length ≤ 11 := by decide
  have htexts : (bytes "drw-r--r-- 1 root root ").length = 23 ∧
      (bytes "-rw-r--r-- 1 root root ").length = 23 ∧ (bytes " ").length = 1 ∧
      (bytes "\r\n").length = 2 := by decide
  unfold listLine
  generalize listDate fno.fdate = date at hdate
  obtain ⟨day, mon, year⟩ := date
  have hday := showNat_length_le (by decide) hdate.1
  have hyear := showNat_length_le (by decide) hdate.2
  have hmon := length_month_le mon
  dsimp only at hday hyear ⊢
  split <;> simp only [List.length_append, length_padLeft, htexts] <;> omega

theorem length_nameLine_lt (fno : FilInfo) : (nameLine fno).length < 256 := by
  have hname := fno.fname_length
  have hend : (bytes "\r\n").length = 2 := by decide
  rw [nameLine, List.length_append, hend]
  omega

def Reply.size : Reply → Nat
  | fileExists s => s.length + 21
  | notRegular s | changedTo s => s.length + 29
  | passwordRequired s | currentDirectory s => s.length + 30
  | cannotWrite s | noSuchDir s => s.length + 33
  | noSuchFile s => s.length + 35
  | fileDeleted s => s.length + 39
  | dirCreated s | dirDeleted s => s.length + 44
  | openingUpload s => s.length + 49
  | openingWhole s total => s.length + (showInt total).length + 58
  | openingPartial s rest total =>
    s.length + (showInt rest).length + (showInt total).length + 67
  | sizeIs numBytes => (showInt numBytes).length + 6
  | adios => 12
  | finished => 15
  | noFeatures => 17
  | unixType => 19
  | simpleListFailed => 20
  | transferComplete | typeAscii => 24
  | typeBinary => 25
  | notImplemented => 26
  | listFailed => 27
  | noMdtm | portSuccessful => 30
  | cannotOpen => 33
  | passwordOk => 41
  | sendTransfer => 43
  | openingList => 51
  | enteringPassive addr port =>
    (showNat (addr &&& 0xff).toNat).length + (showNat (addr >>> 8 &&& 0xff).toNat).length +
      (showNat (addr >>> 16 &&& 0xff).toNat).length +
      (showNat (addr >>> 24 &&& 0xff).toNat).length + (showNat (port / 256).toNat).length +
      (showNat (port % 256).toNat).length + 35

theorem length_echo (pre s post : Bytes) :
    (pre ++ s ++ post).length = s.length + (pre.length + post.length) := by
  simp only [List.length_append]
  omega

@[simp] theorem length_text (reply : Reply) : reply.text.length = reply.size := by
  cases reply with
  | openingUpload s | passwordRequired s | notRegular s | cannotWrite s | currentDirectory s
  | changedTo s | dirCreated s | fileExists s | fileDeleted s | noSuchFile s | dirDeleted s
  | noSuchDir s => exact length_echo _ s _
  | sizeIs numBytes => exact length_echo _ (showInt numBytes) _
  | openingWhole s total =>
    have hliterals : (bytes "150 Opening binary mode data connection for \"").length +
        (bytes "\" (").length + (bytes " bytes).\r\n").length = 58 := by decide
    simp only [Reply.text, Reply.size, List.length_append]
    omega
  | openingPartial s rest total =>
    have hliterals : (bytes "150 Opening binary mode data connection for partial \"").length +
        (bytes "\" (").length + (bytes "/").length + (bytes " bytes).\r\n").length = 67 := by
      decide
    simp only [Reply.text, Reply.size, List.length_append]
    omega
  | enteringPassive addr port =>
    have hliterals : (bytes "227 Entering passive mode (").length + 5 * (bytes ",").length +
        (bytes ")\r\n").length = 35 := by decide
    simp only [Reply.text, Reply.size, List.length_append]
    omega
  | _ => rfl

theorem enteringPassive_size (addr : UInt32) (port : UInt16) :
    (Reply.enteringPassive addr port).size ≤ 53 := by
  have hshow : ∀ n < 256, (showNat n).length ≤ 3 :=
    fun n hn => showNat_length_le (by decide) (by omega)
  have hmask : ∀ x : UInt32, (showNat (x &&& 0xff).toNat).length ≤ 3 := by
    intro x
    apply hshow
    rw [UInt32.toNat_and]
    exact Nat.and_lt_two_pow _ (by decide : (0xff : UInt32).toNat < 2 ^ 8)
  have hport := port.toNat_lt
  have hhigh : (showNat (port / 256).toNat).length ≤ 3 := by
    apply hshow
    rw [UInt16.toNat_div, show (256 : UInt16).toNat = 256 from rfl]
    omega
  have hlow : (showNat (port % 256).toNat).length ≤ 3 := by
    apply hshow
    rw [UInt16.toNat_mod, show (256 : UInt16).toNat = 256 from rfl]
    omega
  have h₀ := hmask addr
  have h₁ := hmask (addr >>> 8)
  have h₂ := hmask (addr >>> 16)
  have h₃ := hmask (addr >>> 24)
  rw [Reply.size]
  omega

end FtpServer
