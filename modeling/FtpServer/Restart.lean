import FtpServer.Transfers

/-! REST and RETR: from which byte on a file is transmitted. -/

namespace FtpServer
open Interaction CString Transition

def AfterRest (reqs : List Request) (n : Nat) : Prop :=
  ∃ req arg, reqs.getLast? = some req ∧ req.cmd = .rest ∧ req.parameter = some arg ∧ Decimal n arg

def NotAfterRest (reqs : List Request) : Prop :=
  ∀ req, reqs.getLast? = some req → req.cmd ≠ .rest

/-- A REST of `n` bytes works below the end of the file, as far as an `int` reaches; of a
file of 4 GiB less one byte nothing is ever sent. -/
def RestartsRight (n size : Nat) : Prop :=
  if size = 2 ^ 32 - 1 then n = size else n = 0 ∨ (n < size ∧ n < 2 ^ 31)

/-- Without a REST, what an earlier one left must have no effect. -/
def StartsRight (offset : UInt32) (size : Nat) : Prop :=
  size ≠ 2 ^ 32 - 1 ∧ (offset = 0 ∨ size ≤ offset.toNat)

theorem offset_afterRest {conn₀ conn : Conn} {reqs : List Request} {n : Nat}
    (hrun : Follows sessionStep conn₀ reqs conn) (h : AfterRest reqs n) :
    conn.offset.toNat = min (2 ^ 31 - 1) n := by
  obtain ⟨req, arg, hlast, hrest, harg, hn⟩ := h
  obtain ⟨before, rfl⟩ := List.getLast?_eq_some_iff.mp hlast
  obtain ⟨conn₁, -, hstep⟩ := (follows_append _ _ _ _).mp hrun
  obtain ⟨conn₂, hstep, rfl⟩ := hstep
  have hoffset := (sessionStep_effect hstep).offset
  rw [hrest, harg] at hoffset
  have hvalue := atoi_decimal hn
  have hpos : 0 ≤ atoi arg := by omega
  simp only [NextOffset, hpos, if_true] at hoffset
  rw [hoffset, dwordOfInt, UInt32.ofInt, UInt32.toNat_ofNat']
  omega

theorem drop_eq_drop_iff {α : Type} (content : List α) {m n : Nat} (hm : m ≤ content.length)
    (hn : n ≤ content.length) : content.drop m = content.drop n ↔ m = n := by
  constructor
  · intro h
    have hlen := congrArg List.length h
    rw [List.length_drop, List.length_drop] at hlen
    omega
  · rintro rfl
    rfl

theorem startPosition_le (offset : UInt32) (content : Bytes) :
    startPosition offset content ≤ content.length := by
  unfold startPosition
  split <;> omega

theorem transmitted_eq_drop {offset : UInt32} {content : Bytes} {n : Nat}
    (hoffset : offset.toNat = min (2 ^ 31 - 1) n) (hn : n ≤ content.length)
    (hsmall : content.length < 2 ^ 32) :
    transmitted offset content = content.drop n ↔ RestartsRight n content.length := by
  unfold transmitted RestartsRight
  split
  · rw [eq_comm, List.drop_eq_nil_iff]
    omega
  · rw [drop_eq_drop_iff content (startPosition_le offset content) hn, startPosition]
    split <;> omega

theorem transmitted_eq_self (offset : UInt32) (content : Bytes) :
    transmitted offset content = content ↔ StartsRight offset content.length := by
  have hzero : offset = 0 ↔ offset.toNat = 0 := by
    rw [← UInt32.toNat_inj]
    rfl
  have hwhole := drop_eq_drop_iff content (startPosition_le offset content) (Nat.zero_le _)
  rw [List.drop_zero] at hwhole
  unfold transmitted StartsRight
  rw [hzero]
  split
  · rename_i hlen
    simp only [hlen, ne_eq, not_true_eq_false, false_and, iff_false]
    rintro rfl
    simp at hlen
  · rw [hwhole, startPosition]
    split <;> omega

/-- In every run, RETR of an existing file transmits what the requests before it ask for
exactly when its strings fit and the offset in effect is one it uses as asked. -/
theorem retr_restarts_iff {conn₀ conn : Conn} {reqs : List Request} {buf arg content : Bytes}
    {disk : Disk} (hrun : Follows sessionStep conn₀ reqs conn)
    (hretr : parseRequest buf = (.retr, some arg))
    (hfile : disk.files (fullPath conn.currentdir arg).2 = some content) :
    ((∀ n, AfterRest reqs n → n ≤ content.length → Transmits disk conn buf (content.drop n)) ∧
      (NotAfterRest reqs → Transmits disk conn buf content)) ↔
    ((∀ n, AfterRest reqs n → n ≤ content.length →
        RetrFits conn buf arg ∧ RestartsRight n content.length) ∧
      (NotAfterRest reqs → RetrFits conn buf arg ∧ StartsRight conn.offset content.length)) := by
  have hsmall := disk.small _ content hfile
  have hrest : ∀ n, AfterRest reqs n → n ≤ content.length →
      (Transmits disk conn buf (content.drop n) ↔
        RetrFits conn buf arg ∧ RestartsRight n content.length) := by
    intro n hn hle
    rw [transmits_iff hretr hfile, transmitted_eq_drop (offset_afterRest hrun hn) hle hsmall]
  have hwhole : Transmits disk conn buf content ↔
      RetrFits conn buf arg ∧ StartsRight conn.offset content.length := by
    rw [transmits_iff hretr hfile, transmitted_eq_self]
  rw [hwhole]
  exact and_congr_left' (forall_congr' fun n => ⟨fun h hn hle => (hrest n hn hle).mp (h hn hle),
    fun h hn hle => (hrest n hn hle).mpr (h hn hle)⟩)

def restOne : Request where
  received := bytes "REST 1\r\n"
  stale := []
  calls := [⟨.malloc, true⟩, ⟨.reply .sockfd 1 Reply.sendTransfer.text, 42⟩]
  fits := by decide

def restarted : Conn := { justAccepted with offset := 1 }

theorem follows_restOne : Follows sessionStep justAccepted [restOne] restarted :=
  ⟨_, ⟨0, by decide, serves_of_replay 0 rfl⟩, rfl⟩

theorem afterRest_restOne : AfterRest [restOne] 1 :=
  ⟨restOne, bytes "1", rfl, rfl, rfl, by decide, List.all_eq_true.mp rfl, rfl⟩

def retrBuf : Bytes := bytes "RETR /a\r\n"

theorem parseRequest_retrBuf : parseRequest retrBuf = (.retr, some (bytes "/a")) := rfl

def oneByte : Disk := .single (bytes "/a") (bytes "x") [] (by decide)

theorem oneByte_file (conn : Conn) :
    oneByte.files (fullPath conn.currentdir (bytes "/a")).2 = some (bytes "x") := rfl

theorem retr_restarts_iff_one :
    ((∀ n, AfterRest [restOne] n → n ≤ (bytes "x").length →
        Transmits oneByte restarted retrBuf ((bytes "x").drop n)) ∧
      (NotAfterRest [restOne] → Transmits oneByte restarted retrBuf (bytes "x"))) ↔
    ((∀ n, AfterRest [restOne] n → n ≤ (bytes "x").length →
        RetrFits restarted retrBuf (bytes "/a") ∧ RestartsRight n (bytes "x").length) ∧
      (NotAfterRest [restOne] → RetrFits restarted retrBuf (bytes "/a") ∧
        StartsRight restarted.offset (bytes "x").length)) :=
  retr_restarts_iff follows_restOne parseRequest_retrBuf (oneByte_file restarted)

theorem rest_to_end_sends_all :
    ¬∀ conn₀ conn reqs buf arg content disk, Accepted conn₀ →
      Follows sessionStep conn₀ reqs conn → parseRequest buf = (.retr, some arg) →
      disk.files (fullPath conn.currentdir arg).2 = some content →
      (∀ n, AfterRest reqs n → n ≤ content.length →
        Transmits disk conn buf (content.drop n)) ∧
      (NotAfterRest reqs → Transmits disk conn buf content) := by
  intro h
  have hrestarts := h justAccepted restarted [restOne] retrBuf (bytes "/a") (bytes "x") oneByte
    accepted_justAccepted follows_restOne parseRequest_retrBuf (oneByte_file restarted)
  have hnothing := hrestarts.1 1 afterRest_restOne (le_refl 1)
  have hsent := ((transmits_iff parseRequest_retrBuf (oneByte_file restarted) _).mp hnothing).2
  exact absurd hsent (by decide)

end FtpServer
