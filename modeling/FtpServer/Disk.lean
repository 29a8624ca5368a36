import FtpServer.Request
import FtpServer.Library.Overlay
import FtpServer.Library.Total

/-! The world the file calls act on: a FatFs volume and the bytes a client sends on
the data connection. Every call may fail; `smoothStep` is the part in which none does. -/

namespace FtpServer
open Interaction CString Overlay Transition

/-- What `f_readdir` gives for a directory, one entry after another. -/
structure Directory where
  entries : List FilInfo
  named : ∀ entry ∈ entries, entry.fname ≠ []

/-- A `FIL`: after a disk error `err` makes every later call on it fail. -/
structure OpenFile where
  path : Bytes
  fptr : Nat
  err : Bool
  deriving DecidableEq, Repr

structure Disk where
  files : Bytes → Option Bytes
  dirs : Bytes → Option Directory
  opened : Option OpenFile
  listing : List FilInfo
  incoming : Bytes
  /-- `fsize` is a `DWORD`. -/
  small : ∀ path content, files path = some content → content.length < 2 ^ 32

def Disk.hold (disk : Disk) (opened : Option OpenFile) : Disk := { disk with opened := opened }

def Disk.store (disk : Disk) (path content : Bytes) (h : content.length < 2 ^ 32) : Disk :=
  { disk with
    files := Function.update disk.files path (some content)
    small := by
      intro other content' hother
      by_cases hpath : other = path
      · subst hpath
        have hcontent : content = content' := by simpa using hother
        rwa [← hcontent]
      · rw [Function.update_of_ne hpath] at hother
        exact disk.small other content' hother }

def Disk.remove (disk : Disk) (path : Bytes) : Disk :=
  { disk with
    files := Function.update disk.files path none
    dirs := Function.update disk.dirs path none
    small := by
      intro other content hother
      by_cases hpath : other = path
      · subst hpath
        simp at hother
      · rw [Function.update_of_ne hpath] at hother
        exact disk.small other content hother }

def Disk.single (path content incoming : Bytes) (h : content.length < 2 ^ 32) : Disk where
  files := Function.update (fun _ => none) path (some content)
  dirs := fun _ => none
  opened := none
  listing := []
  incoming := incoming
  small := by
    intro other content' hother
    by_cases hpath : other = path
    · subst hpath
      have hcontent : content = content' := by simpa using hother
      rwa [← hcontent]
    · rw [Function.update_of_ne hpath] at hother
      cases hother

def Disk.Open (disk : Disk) (file : OpenFile) (content : Bytes) : Prop :=
  disk.opened = some file ∧ disk.files file.path = some content

/-- `f_read` gives the next bytes, all that are asked for or left. After an error it has
given fewer, and the file object stays unusable. -/
def Disk.Reads (disk disk' : Disk) (file : OpenFile) (content : Bytes) (btr : Nat)
    (rc : FResult) (data : Bytes) : Prop :=
  (rc = .ok ∧ file.err = false ∧ data = (content.drop file.fptr).take btr ∧
    disk' = disk.hold (some { file with fptr := file.fptr + data.length })) ∨
  (rc ≠ .ok ∧ disk' = disk.hold (some { file with fptr := file.fptr + data.length, err := true }) ∧
    (data = [] ∨ file.err = false ∧ data <+: content.drop file.fptr ∧
      data.length < ((content.drop file.fptr).take btr).length))

/-- `f_write` stores the first `written` bytes; without an error it stores fewer than it is
given when the disk or the file is full. -/
def Disk.Writes (disk disk' : Disk) (file : OpenFile) (content data : Bytes) (rc : FResult)
    (written : Nat) : Prop :=
  written ≤ data.length ∧ (rc ≠ .ok → written < data.length) ∧
  (file.err = true → rc ≠ .ok ∧ written = 0) ∧
  ∃ h, disk' = (disk.store file.path (overlay content file.fptr (data.take written)) h).hold
    (some { file with fptr := file.fptr + written, err := decide (rc ≠ .ok) })

/-- One call and its answer. `f_open` with `FA_OPEN_ALWAYS` creates a missing file and keeps
the content of one that is there. -/
def Disk.answers (disk disk' : Disk) : (c : Call) → c.Answer → Prop
  | .fOpen path mode, rc =>
    (rc = .ok ∧ disk.files path ≠ none ∧ disk' = disk.hold (some ⟨path, 0, false⟩)) ∨
    (rc = .ok ∧ disk.files path = none ∧ mode &&& faOpenAlways ≠ 0 ∧
      disk' = (disk.store path [] (by simp)).hold (some ⟨path, 0, false⟩)) ∨
    (rc ≠ .ok ∧ disk' = disk)
  | .fSize, size =>
    ∃ file content, disk.Open file content ∧ size.toNat = content.length ∧ disk' = disk
  | .fRead btr, (rc, data) =>
    ∃ file content, disk.Open file content ∧ disk.Reads disk' file content btr rc data
  | .fWrite data, (rc, written) =>
    ∃ file content, disk.Open file content ∧ disk.Writes disk' file content data rc written
  | .fLseek ofs, rc =>
    ∃ file content, disk.Open file content ∧
      ((rc = .ok ∧ file.err = false ∧
        disk' = disk.hold (some { file with fptr := min ofs.toNat content.length })) ∨
      (rc ≠ .ok ∧ disk' = disk.hold (some { file with err := true })))
  | .fClose, _ => disk' = disk.hold none
  | .fOpendir path, rc =>
    (rc = .ok ∧ ∃ dir, disk.dirs path = some dir ∧ disk' = { disk with listing := dir.entries }) ∨
    (rc ≠ .ok ∧ disk' = disk)
  | .fReaddir, (rc, fno) =>
    (rc = .ok ∧ disk.listing = [] ∧ fno.fname = [] ∧ disk' = disk) ∨
    (rc = .ok ∧ ∃ rest, disk.listing = fno :: rest ∧ disk' = { disk with listing := rest }) ∨
    (rc ≠ .ok ∧ disk' = disk)
  | .fMkdir path, rc =>
    (rc = .ok ∧ disk' = { disk with dirs := Function.update disk.dirs path (some ⟨[], by simp⟩) }) ∨
    (rc ≠ .ok ∧ disk' = disk)
  | .fUnlink path, rc => (rc = .ok ∧ disk' = disk.remove path) ∨ (rc ≠ .ok ∧ disk' = disk)
  | .recv _ _ len, data =>
    (data = none ∧ disk' = disk) ∨
    (data = some [] ∧ disk.incoming = [] ∧ disk' = disk) ∨
    (∃ chunk rest, data = some chunk ∧ chunk ≠ [] ∧ chunk.length ≤ len ∧
      disk.incoming = chunk ++ rest ∧ disk' = { disk with incoming := rest })
  | .send _ _ data, sent | .reply _ _ data, sent => sent ≤ data.length ∧ disk' = disk
  | _, _ => disk' = disk

def diskStep (disk : Disk) (e : CallEvent) (disk' : Disk) : Prop :=
  disk.answers disk' e.call e.answer

theorem Disk.Open.unique {disk : Disk} {file file' : OpenFile} {content content' : Bytes}
    (h : disk.Open file content) (h' : disk.Open file' content') :
    file' = file ∧ content' = content := by
  have hfile : file' = file := by simpa [h.1] using h'.1.symm
  subst hfile
  exact ⟨rfl, by simpa [h.2] using h'.2.symm⟩

theorem Disk.Reads.unique {disk v v' : Disk} {file : OpenFile} {content data : Bytes} {btr : Nat}
    {rc : FResult} (h : disk.Reads v file content btr rc data)
    (h' : disk.Reads v' file content btr rc data) : v' = v := by
  rcases h with ⟨hrc, -, -, rfl⟩ | ⟨hrc, rfl, -⟩
  · rcases h' with ⟨-, -, -, rfl⟩ | ⟨hfailed, -⟩
    · rfl
    · exact absurd hrc hfailed
  · rcases h' with ⟨hok, -⟩ | ⟨-, rfl, -⟩
    · exact absurd hok hrc
    · rfl

theorem diskStep_deterministic : Deterministic diskStep := by
  intro disk e v v' h h'
  obtain ⟨q, a⟩ := e
  cases q with
  | fOpen path mode =>
    rcases h with ⟨hrc, hthere, rfl⟩ | ⟨hrc, hnew, -, rfl⟩ | ⟨hrc, rfl⟩
    · rcases h' with ⟨-, -, rfl⟩ | ⟨-, hnew, -⟩ | ⟨hfailed, -⟩
      · rfl
      · exact absurd hnew hthere
      · exact absurd hrc hfailed
    · rcases h' with ⟨-, hthere, -⟩ | ⟨-, -, -, rfl⟩ | ⟨hfailed, -⟩
      · exact absurd hnew hthere
      · rfl
      · exact absurd hrc hfailed
    · rcases h' with ⟨hok, -⟩ | ⟨hok, -⟩ | ⟨-, rfl⟩
      · exact absurd hok hrc
      · exact absurd hok hrc
      · rfl
  | fSize =>
    obtain ⟨_, _, _, _, rfl⟩ := h
    obtain ⟨_, _, _, _, rfl⟩ := h'
    rfl
  | fRead btr =>
    obtain ⟨file, content, hopen, hreads⟩ := h
    obtain ⟨file', content', hopen', hreads'⟩ := h'
    obtain ⟨rfl, rfl⟩ := hopen.unique hopen'
    exact hreads.unique hreads'
  | fWrite data =>
    obtain ⟨file, content, hopen, -, -, -, _, rfl⟩ := h
    obtain ⟨file', content', hopen', -, -, -, _, rfl⟩ := h'
    obtain ⟨rfl, rfl⟩ := hopen.unique hopen'
    rfl
  | fLseek ofs =>
    obtain ⟨file, content, hopen, hseeks⟩ := h
    obtain ⟨file', content', hopen', hseeks'⟩ := h'
    obtain ⟨rfl, rfl⟩ := hopen.unique hopen'
    rcases hseeks with ⟨hrc, -, rfl⟩ | ⟨hrc, rfl⟩
    · rcases hseeks' with ⟨-, -, rfl⟩ | ⟨hfailed, -⟩
      · rfl
      · exact absurd hrc hfailed
    · rcases hseeks' with ⟨hok, -⟩ | ⟨-, rfl⟩
      · exact absurd hok hrc
      · rfl
  | fOpendir path =>
    rcases h with ⟨hrc, dir, hdir, rfl⟩ | ⟨hrc, rfl⟩
    · rcases h' with ⟨-, dir', hdir', rfl⟩ | ⟨hfailed, -⟩
      · obtain rfl : dir = dir' := Option.some.inj (hdir.symm.trans hdir')
        rfl
      · exact absurd hrc hfailed
    · rcases h' with ⟨hok, -⟩ | ⟨-, rfl⟩
      · exact absurd hok hrc
      · rfl
  | fReaddir =>
    rcases h with ⟨hrc, hnil, -, rfl⟩ | ⟨hrc, rest, hcons, rfl⟩ | ⟨hrc, rfl⟩
    · rcases h' with ⟨-, -, -, rfl⟩ | ⟨-, rest, hcons, -⟩ | ⟨hfailed, -⟩
      · rfl
      · simp [hnil] at hcons
      · exact absurd hrc hfailed
    · rcases h' with ⟨-, hnil, -⟩ | ⟨-, rest', hcons', rfl⟩ | ⟨hfailed, -⟩
      · simp [hnil] at hcons
      · obtain rfl : rest = rest' := (List.cons.inj (hcons.symm.trans hcons')).2
        rfl
      · exact absurd hrc hfailed
    · rcases h' with ⟨hok, -⟩ | ⟨hok, -⟩ | ⟨-, rfl⟩
      · exact absurd hok hrc
      · exact absurd hok hrc
      · rfl
  | recv via sock len =>
    rcases h with ⟨hlost, rfl⟩ | ⟨hend, -, rfl⟩ | ⟨chunk, rest, hchunk, hne, -, hin, rfl⟩
    · rcases h' with ⟨-, rfl⟩ | ⟨-, -, rfl⟩ | ⟨chunk, rest, hchunk, -⟩
      · rfl
      · rfl
      · cases hlost.symm.trans hchunk
    · rcases h' with ⟨-, rfl⟩ | ⟨-, -, rfl⟩ | ⟨chunk, rest, hchunk, hne, -⟩
      · rfl
      · rfl
      · exact absurd (Option.some.inj (hend.symm.trans hchunk)).symm hne
    · rcases h' with ⟨hlost, -⟩ | ⟨hend, -, -⟩ | ⟨chunk', rest', hchunk', -, -, hin', rfl⟩
      · cases hlost.symm.trans hchunk
      · exact absurd (Option.some.inj (hend.symm.trans hchunk)).symm hne
      · obtain rfl : chunk = chunk' := Option.some.inj (hchunk.symm.trans hchunk')
        obtain rfl : rest = rest' := List.append_cancel_left (hin.symm.trans hin')
        rfl
  | fMkdir path | fUnlink path =>
    rcases h with ⟨hrc, rfl⟩ | ⟨hrc, rfl⟩
    · rcases h' with ⟨-, rfl⟩ | ⟨hfailed, -⟩
      · rfl
      · exact absurd hrc hfailed
    · rcases h' with ⟨hok, -⟩ | ⟨-, rfl⟩
      · exact absurd hok hrc
      · rfl
  | send via sock data | reply via sock text => exact h'.2.trans h.2.symm
  | _ => exact Eq.trans h' h.symm

/-- No call fails; `send` may still take what it likes. -/
def Smooth : (c : Call) → c.Answer → Prop
  | .malloc, allocated => allocated = true
  | .fOpen _ _, rc | .fLseek _, rc | .fClose, rc | .fOpendir _, rc | .fMkdir _, rc
  | .fUnlink _, rc => rc = .ok
  | .fRead _, (rc, _) => rc = .ok
  | .fReaddir, (rc, _) => rc = .ok
  | .fWrite data, (rc, written) => rc = .ok ∧ written = data.length
  | .select _ _, ready => 0 < ready.ret
  | .recv _ _ _, data => data ≠ none
  | _, _ => True

def smoothStep (disk : Disk) (e : CallEvent) (disk' : Disk) : Prop :=
  Smooth e.call e.answer ∧ diskStep disk e disk'

section Smooth
variable {disk : Disk}

theorem smooth_open {path : Bytes} (hfile : disk.files path ≠ none) (mode : UInt8)
    (rc : FResult) (u : Disk) :
    smoothStep disk ⟨.fOpen path mode, rc⟩ u ↔
      rc = .ok ∧ u = disk.hold (some ⟨path, 0, false⟩) := by
  by_cases hrc : rc = .ok <;> simp [smoothStep, diskStep, Smooth, Disk.answers, hfile, hrc]

theorem smooth_size {file : OpenFile} {content : Bytes} (hopen : disk.Open file content)
    (size : UInt32) (u : Disk) :
    smoothStep disk ⟨.fSize, size⟩ u ↔ size = UInt32.ofNat content.length ∧ u = disk := by
  have hsmall := disk.small file.path content hopen.2
  have hsize : size.toNat = content.length ↔ size = UInt32.ofNat content.length := by
    rw [← UInt32.toNat_inj, UInt32.toNat_ofNat', Nat.mod_eq_of_lt hsmall]
  simp [smoothStep, diskStep, Smooth, Disk.answers, Disk.Open, hopen.1, hopen.2, hsize]

theorem smooth_read {file : OpenFile} {content : Bytes} (hopen : disk.Open file content)
    (herr : file.err = false) (btr : Nat) (answer : FResult × Bytes) (u : Disk) :
    smoothStep disk ⟨.fRead btr, answer⟩ u ↔
      answer = (FResult.ok, (content.drop file.fptr).take btr) ∧
      u = disk.hold (some { file with
        fptr := file.fptr + ((content.drop file.fptr).take btr).length }) := by
  obtain ⟨rc, data⟩ := answer
  simp only [smoothStep, diskStep, Smooth, Disk.answers, Disk.Open, Disk.Reads, hopen.1,
    Prod.mk.injEq]
  constructor
  · rintro ⟨hrc, file', content', ⟨hfile', hcontent'⟩, hreads⟩
    obtain rfl : file' = file := by simpa using hfile'.symm
    obtain rfl : content' = content := by simpa [hopen.2] using hcontent'.symm
    cases hreads with
    | inl hok => exact ⟨⟨hrc, hok.2.2.1⟩, by rw [hok.2.2.2, hok.2.2.1]⟩
    | inr hbad => exact absurd hrc hbad.1
  · rintro ⟨⟨hrc, hdata⟩, hu⟩
    exact ⟨hrc, file, content, ⟨rfl, hopen.2⟩, .inl ⟨hrc, herr, hdata, by rw [hu, hdata]⟩⟩

theorem smooth_close (rc : FResult) (u : Disk) :
    smoothStep disk ⟨.fClose, rc⟩ u ↔ rc = .ok ∧ u = disk.hold none := by
  simp [smoothStep, diskStep, Smooth, Disk.answers]

theorem smooth_lseek {file : OpenFile} {content : Bytes} (hopen : disk.Open file content)
    (herr : file.err = false) (ofs : UInt32) (rc : FResult) (u : Disk) :
    smoothStep disk ⟨.fLseek ofs, rc⟩ u ↔
      rc = .ok ∧ u = disk.hold (some { file with fptr := min ofs.toNat content.length }) := by
  by_cases hrc : rc = .ok <;>
    simp [smoothStep, diskStep, Smooth, Disk.answers, Disk.Open, hopen.1, hopen.2, herr, hrc]

end Smooth

end FtpServer
