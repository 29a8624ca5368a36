import FtpServer.Around

/-! An open file as its user has it: bytes, a position, and whether the device has all of it.
Every run of calls on a file object is one of that. -/

namespace FtpServer
open Interaction Transition CString Overlay

inductive FileCall where
  | fRead (btr : Nat)
  | fWrite (data : Bytes)
  | fLseek (ofs : Nat)
  | fSync
  | fClose

abbrev FileCall.Answer : FileCall → Type
  | .fRead _ => FResult × Bytes
  | .fWrite _ => FResult × Nat
  | .fLseek _ | .fSync | .fClose => FResult

/-- The server reads and writes at most a sector at a time; an offset has 32 bits. -/
def FileCall.Fits : FileCall → Prop
  | .fRead btr => btr ≤ 512
  | .fWrite data => data.length ≤ 512
  | .fLseek ofs => ofs < 2 ^ 32
  | .fSync | .fClose => True

instance : (c : FileCall) → Decidable c.Fits
  | .fRead btr => inferInstanceAs (Decidable (btr ≤ 512))
  | .fWrite data => inferInstanceAs (Decidable (data.length ≤ 512))
  | .fLseek ofs => inferInstanceAs (Decidable (ofs < 2 ^ 32))
  | .fSync | .fClose => inferInstanceAs (Decidable True)

def FileCall.run (fp : Fil) : (c : FileCall) → FatFs (c.Answer × Fil)
  | .fRead btr => do
    let (res, fp, data) ← fp.fRead btr
    pure ((res, data), fp)
  | .fWrite data => do
    let (res, fp, bw) ← fp.fWrite data
    pure ((res, bw), fp)
  | .fLseek ofs => fp.fLseek ofs
  | .fSync => fp.fSync
  | .fClose => fp.fClose

def FileCall.result : (c : FileCall) → c.Answer → FResult
  | .fRead _, answer | .fWrite _, answer => answer.1
  | .fLseek _, res | .fSync, res | .fClose, res => res

def FileCall.refuse (res : FResult) : (c : FileCall) → c.Answer
  | .fRead _ => (res, [])
  | .fWrite _ => (res, 0)
  | .fLseek _ | .fSync | .fClose => res

structure FileState where
  fs : Fatfs
  dev : Device
  fp : Fil

def FileState.shown (s : FileState) : Sectors :=
  fun n => if n = s.fs.winsect then s.fs.win else s.dev.sectors n

/-- A call, with what the FAT says after it and whether one of its transfers has failed. -/
structure FileEvent extends Event FileCall FileCall.Answer where
  failed : Bool
  full : Bool
  reserved : Bool

def FileEvent.res (e : FileEvent) : FResult := e.call.result e.answer

def fileStep (s : FileState) (e : FileEvent) (s' : FileState) : Prop :=
  e.call.Fits ∧
  Executes notedStep (e.call.run s.fp) s.fs (s.dev, false) (e.answer, s'.fp) s'.fs
    (s'.dev, e.failed) ∧
  e.full = decide (Full s'.fs.toGeometry s'.shown) ∧
  e.reserved = decide (Reserved s'.fs.toGeometry s'.shown)

/-- `changed` says that there is something to be synchronized, `behind` that an attempt at it has
failed which will not be repeated. After an error `data` and `pos` are no longer kept. -/
structure Stream where
  opened : Bool
  err : FResult
  read : Bool
  write : Bool
  data : Bytes
  pos : Nat
  changed : Bool
  behind : Bool

/-- A read takes what there is. A write is short only on a full disk, and stores nothing where the
file would reach 4 GB. A seek stays in a file that is only read; in one that is written it goes
where it is to go, or on a full disk to no less than the end. -/
def Stream.moves (σ : Stream) (e : FileEvent) (σ' : Stream) : Prop :=
  match e with
  | ⟨⟨.fRead btr, (res, data)⟩, _, _, _⟩ =>
    res = .ok ∧ σ.read = true ∧ data = (σ.data.drop σ.pos).take btr ∧
        σ' = { σ with pos := σ.pos + data.length } ∨
      res = .denied ∧ σ.read = false ∧ data = [] ∧ σ' = σ
  | ⟨⟨.fWrite data, (res, bw)⟩, _, full, _⟩ =>
    res = .ok ∧ σ.write = true ∧
        (if σ.pos + data.length < 2 ^ 32 then bw = data.length ∨ bw < data.length ∧ full = true
          else bw = 0) ∧
        σ' = { σ with
          data := overlay σ.data σ.pos (data.take bw), pos := σ.pos + bw, changed := true } ∨
      res = .denied ∧ σ.write = false ∧ bw = 0 ∧ σ' = σ
  | ⟨⟨.fLseek ofs, res⟩, _, full, _⟩ => res = .ok ∧
    (σ.write = false ∧ σ' = { σ with pos := min ofs σ.data.length } ∨
      σ.write = true ∧ ∃ fill pos,
        (pos = ofs ∨ full = true ∧ σ.data.length ≤ pos ∧ pos < ofs) ∧
        σ.data.length + fill.length = max σ.data.length pos ∧
        σ' = { σ with
          data := σ.data ++ fill, pos := pos, changed := σ.changed || decide (fill ≠ []) })
  | _ => False

/-- What a call has moved before it fails. -/
def Stream.began (σ : Stream) : (c : FileCall) → c.Answer → Prop
  | .fRead btr, (_, data) => data <+: (σ.data.drop σ.pos).take btr
  | .fWrite data, (_, bw) => bw < data.length
  | .fLseek _, _ | .fSync, _ | .fClose, _ => True

/-- A call fails when a transfer has, or at a reserved entry of the FAT. -/
def Stream.fails (σ : Stream) (e : FileEvent) (σ' : Stream) : Prop :=
  (e.res = .diskErr ∧ e.failed = true ∨ e.res = .intErr ∧ σ.write = true ∧ e.reserved = true) ∧
    σ.began e.call e.answer ∧ σ' = { σ with err := e.res, data := [], pos := 0 }

def Stream.syncs (σ : Stream) (res : FResult) (failed : Bool) (σ' : Stream) : Prop :=
  res = .ok ∧ σ.changed = false ∧ σ' = σ ∨
    res = .ok ∧ σ.changed = true ∧ σ' = { σ with changed := false, behind := false } ∨
    (res = .diskErr ∧ failed = true) ∧ σ.changed = true ∧
      (σ' = σ ∨ σ' = { σ with changed := false, behind := true })

/-- What may come of a call. A file that is closed, or has failed, is of no more use. -/
def streamStep (σ : Stream) (e : FileEvent) (σ' : Stream) : Prop :=
  if σ.opened = false then e.answer = e.call.refuse .invalidObject ∧ σ' = σ
  else match e with
    | ⟨⟨.fSync, res⟩, failed, _, _⟩ => σ.syncs res failed σ'
    | ⟨⟨.fClose, res⟩, failed, _, _⟩ =>
      ∃ σ₁, σ.syncs res failed σ₁ ∧ σ' = { σ₁ with opened := decide (res ≠ .ok) }
    | e => if σ.err = .ok then σ.moves e σ' ∨ σ.fails e σ'
      else e.answer = e.call.refuse σ.err ∧ σ' = σ

section Step
variable {σ σ' : Stream} {e : FileEvent}

theorem streamStep_closed (h : σ.opened = false) :
    streamStep σ e σ' ↔ e.answer = e.call.refuse .invalidObject ∧ σ' = σ := by
  unfold streamStep
  rw [if_pos h]

theorem streamStep_access (h : σ.opened = true) (hsync : e.call ≠ .fSync)
    (hclose : e.call ≠ .fClose) : streamStep σ e σ' ↔
      if σ.err = .ok then σ.moves e σ' ∨ σ.fails e σ'
      else e.answer = e.call.refuse σ.err ∧ σ' = σ := by
  unfold streamStep
  rw [if_neg (by simp [h])]
  obtain ⟨⟨call, answer⟩, failed, full, reserved⟩ := e
  cases call with
  | fSync => exact absurd rfl hsync
  | fClose => exact absurd rfl hclose
  | fRead | fWrite | fLseek => rfl

theorem streamStep_fSync (h : σ.opened = true) {res : FResult} {failed full reserved : Bool} :
    streamStep σ ⟨⟨.fSync, res⟩, failed, full, reserved⟩ σ' ↔ σ.syncs res failed σ' := by
  unfold streamStep
  rw [if_neg (by simp [h])]

theorem streamStep_fClose (h : σ.opened = true) {res : FResult} {failed full reserved : Bool} :
    streamStep σ ⟨⟨.fClose, res⟩, failed, full, reserved⟩ σ' ↔
      ∃ σ₁, σ.syncs res failed σ₁ ∧ σ' = { σ₁ with opened := decide (res ≠ .ok) } := by
  unfold streamStep
  rw [if_neg (by simp [h])]

end Step

section Frame
variable {g : Geometry} {w w₁ w₂ : Sectors} {cs cs₁ cs₂ : List Nat} {dir ptr n : Nat}

/-- What has changed is the file on `cs`, its entry and free clusters. -/
structure Spares (g : Geometry) (dir ptr : Nat) (w : Sectors) (cs : List Nat) (w' : Sectors)
    (cs' : List Nat) : Prop where
  ext : Extends g w cs (Function.update w' dir (w dir)) cs'
  entry : ∀ j, j < ptr + 11 ∨ ptr + 32 ≤ j → (w' dir).get j = (w dir).get j

theorem Spares.refl (w : Sectors) (cs : List Nat) : Spares g dir ptr w cs w cs := by
  refine ⟨?_, fun _ _ => rfl⟩
  rw [Function.update_eq_self]
  exact .refl w cs

theorem table_update (hg : g.Sound) (hdir : ¬g.InFat dir) (win : Sector) {c : Nat}
    (hc : g.Cluster c) : g.table (Function.update w dir win) c = g.table w c := by
  apply table_congr hg _ hc.2
  rintro n hn
  apply Function.update_of_ne
  rintro rfl
  exact hdir hn

theorem Elsewhere.congr (h : Elsewhere g w cs n)
    (htable : ∀ c, g.Cluster c → g.table w₁ c = g.table w c) : Elsewhere g w₁ cs n := by
  refine ⟨h.outside, fun c r hc hr hsect => ?_⟩
  rw [htable c hc]
  exact h.used c r hc hr hsect

theorem Spares.extend (h : Spares g dir ptr w cs w₁ cs₁) (hg : g.Sound)
    (hdir : Elsewhere g w₁ cs₁ dir) (h' : Extends g w₁ cs₁ w₂ cs₂)
    (hcs : ∀ c ∈ cs₂, g.Cluster c) : Spares g dir ptr w cs w₂ cs₂ := by
  have hsame : ∀ (v : Sectors) c, g.Cluster c → g.table (Function.update v dir (w dir)) c =
      g.table v c := fun v c hc => table_update hg hdir.outside _ hc
  have hkept := h'.sectors dir hdir
  refine ⟨h.ext.trans ⟨h'.old, fun c hc => ?_, fun c hc hnot hused => ?_, fun n hn => ?_,
    fun c hc hused => ?_, fun c hc => ?_⟩ hcs, fun j hj => by rw [hkept, h.entry j hj]⟩
  · rw [hsame _ c (hcs c hc)]
    exact h'.fresh c hc
  · rw [hsame _ c hc] at hused ⊢
    rw [hsame _ c hc]
    exact h'.table c hc hnot hused
  · by_cases heq : n = dir
    · rw [heq, Function.update_self, Function.update_self]
    · rw [Function.update_of_ne heq, Function.update_of_ne heq]
      exact h'.sectors n (hn.congr fun c hc => (hsame _ c hc).symm)
  · rw [hsame _ c hc] at hused ⊢
    exact h'.used c hc hused
  · rw [hsame _ c (hcs c hc)]
    exact h'.taken c hc

theorem Spares.record {fp : Fil} (h : Spares g fp.dirSect fp.dirPtr w cs w₁ cs₁)
    (hfits : fp.dirPtr + 32 ≤ 512) :
    Spares g fp.dirSect fp.dirPtr w cs (fp.recorded w₁) cs₁ := by
  refine ⟨?_, fun j hj => ?_⟩
  · rw [Fil.recorded, Function.update_idem]
    exact h.ext
  · rw [Fil.recorded, Function.update_self, entry_frame hfits hj, h.entry j hj]

theorem Slot.extend {base base' : FilBase} (h : Slot g w cs base) (hext : Extends g w cs w₁ cs₁)
    (hsect : base'.dirSect = base.dirSect) (hptr : base'.dirPtr = base.dirPtr) :
    Slot g w₁ cs₁ base' := by
  refine ⟨?_, ?_, ?_, ?_⟩
  · rw [hsect]
    exact hext.elsewhere h.elsewhere
  · rw [hsect]
    exact h.primary
  · rw [hsect]
    exact h.low
  · rw [hptr]
    exact h.fits

end Frame

section Content
variable {g : Geometry} {w w' : Sectors} {cs cs' : List Nat} {len n p : Nat} {data : Bytes}

theorem getD_fileBytes {i : Nat} (hi : i < n) (d : UInt8) :
    (fileBytes g cs w 0 n).getD i d = fileByte g cs w i := by
  rw [List.getD_eq_getElem _ _ (by simpa using hi)]
  simp [fileBytes]

theorem fileBytes_ext {l : Bytes} (hlen : l.length = n)
    (h : ∀ i < n, l.getD i 0 = fileByte g cs w i) : fileBytes g cs w 0 n = l := by
  apply List.ext_getElem (by simp [hlen])
  intro i hi hi'
  have hbyte := h i (by simpa using hi)
  rw [List.getD_eq_getElem _ _ hi'] at hbyte
  simpa [fileBytes] using hbyte.symm

theorem fileBytes_read (btr : Nat) :
    ((fileBytes g cs w 0 len).drop p).take btr = fileBytes g cs w p (min btr (len - p)) := by
  rw [List.take_eq_take_min, List.length_drop, length_fileBytes]
  by_cases hp : p ≤ len
  · exact fileBytes_drop_take (by omega)
  · have hnone : min btr (len - p) = 0 := by omega
    rw [hnone, List.take_zero, fileBytes_zero]

theorem fileBytes_write (hp : p ≤ len) (hn : n ≤ data.length)
    (h : ∀ i < max len (p + n), fileByte g cs' w' i =
      if p ≤ i ∧ i < p + n then data.getD (i - p) 0 else fileByte g cs w i) :
    fileBytes g cs' w' 0 (max len (p + n)) = overlay (fileBytes g cs w 0 len) p (data.take n) := by
  have hlen : (data.take n).length = n := by simp [hn]
  apply fileBytes_ext
  · rw [length_overlay (by simpa using hp), length_fileBytes, hlen]
  · intro i hi
    rw [getD_overlay (by simpa using hp), h i hi, hlen]
    by_cases hin : p ≤ i ∧ i < p + n
    · rw [if_pos hin, if_pos hin, List.getD_eq_getElem?_getD, List.getElem?_take_of_lt (by omega),
        List.getD_eq_getElem?_getD]
    · rw [if_neg hin, if_neg hin, getD_fileBytes (by omega)]

theorem fileBytes_stretch (hle : len ≤ n) (h : ∀ i < len, fileByte g cs' w' i = fileByte g cs w i) :
    fileBytes g cs' w' 0 n = fileBytes g cs w 0 len ++ fileBytes g cs' w' len (n - len) := by
  have hsplit : fileBytes g cs' w' 0 (len + (n - len)) =
      fileBytes g cs' w' 0 len ++ fileBytes g cs' w' (0 + len) (n - len) :=
    fileBytes_add (n - len)
  rw [Nat.add_sub_cancel' hle, Nat.zero_add] at hsplit
  rw [hsplit]
  congr 1
  apply List.map_congr_left
  intro i hi
  rw [Nat.zero_add]
  exact h i (List.mem_range.mp hi)

end Content

section Shown
variable {g : Geometry} {v w : Sectors} {cs : List Nat} {fs : Fatfs} {dev : Device} {fp : Fil}

theorem Placed.table_shown (h : Placed g w fs dev fp cs) (hg : g.Sound) {c : Nat}
    (hc : g.Cluster c) : g.table (FileState.shown ⟨fs, dev, fp⟩) c = g.table w c := by
  obtain ⟨v, hshows, rfl⟩ := h.shows
  rw [h.table_over hg hc]
  refine table_congr hg (fun n hn => ?_) hc.2
  have hprimary := hg.primary_inFat hn
  unfold FileState.shown
  split
  · rename_i hwin
    rw [hwin] at hprimary ⊢
    exact hshows.win hprimary
  · rename_i hother
    exact hshows.device n hprimary fun _ => hother

theorem Placed.full (h : Placed g w fs dev fp cs) (hg : g.Sound) :
    Full fs.toGeometry (FileState.shown ⟨fs, dev, fp⟩) ↔ Full g w := by
  obtain ⟨v, hshows, -⟩ := h.shows
  rw [hshows.geometry]
  exact forall₂_congr fun c hc => by rw [h.table_shown hg hc]

theorem Placed.reserved (h : Placed g w fs dev fp cs) (hg : g.Sound) :
    Reserved fs.toGeometry (FileState.shown ⟨fs, dev, fp⟩) ↔ Reserved g w := by
  obtain ⟨v, hshows, -⟩ := h.shows
  rw [hshows.geometry]
  exact exists_congr fun c => and_congr_right fun hc => by rw [h.table_shown hg hc]

end Shown

section Simulation
variable {g : Geometry} {w w' : Sectors} {cs cs' : List Nat} {fs fs' : Fatfs} {dev dev' : Device}
  {fp fp' : Fil} {behind : Bool} {s s' : FileState} {e : FileEvent}

def Fil.stream (fp : Fil) (g : Geometry) (w : Sectors) (cs : List Nat)
    (behind : Bool) : Stream where
  opened := fp.attached
  err := fp.err
  read := fp.read
  write := fp.write
  data := if fp.err = .ok then fp.content g cs w else []
  pos := if fp.err = .ok then fp.fptr else 0
  changed := fp.written
  behind := behind

theorem Fil.stream_ok (herr : fp.err = .ok) : fp.stream g w cs behind =
    ⟨fp.attached, .ok, fp.read, fp.write, fp.content g cs w, fp.fptr, fp.written, behind⟩ := by
  simp [Fil.stream, herr]

theorem Fil.stream_err (herr : fp.err ≠ .ok) : fp.stream g w cs behind =
    ⟨fp.attached, fp.err, fp.read, fp.write, [], 0, fp.written, behind⟩ := by
  simp [Fil.stream, herr]

/-- A file object without an error. Unless there is something to be synchronized the volume has
the file; and unless that has been in vain, nothing is to be written back. -/
structure Streaming (g : Geometry) (w : Sectors) (cs : List Nat) (s : FileState) (behind : Bool) :
    Prop where
  opened : Opened g w s.fs s.dev s.fp cs
  slot : Slot g w cs s.fp.toFilBase
  saved : s.fp.written = false →
    s.fp.dirty = false ∧ FileAt g w s.fp.dirSect s.fp.dirPtr (s.fp.content g cs w) cs
  rest : s.fp.written = false → behind = false → s.fs.wflag = false

/-- An error has ended the use of the file object; it is still there to be closed. -/
structure Ended (g : Geometry) (w : Sectors) (cs : List Nat) (s : FileState) : Prop where
  placed : Placed g w s.fs s.dev s.fp cs
  slot : Slot g w cs s.fp.toFilBase
  used : ∀ c ∈ cs, g.table w c ≠ 0
  failed : s.fp.err ≠ .ok

def Standing (g : Geometry) (w : Sectors) (cs : List Nat) (s : FileState) (behind : Bool) : Prop :=
  Streaming g w cs s behind ∨ Ended g w cs s

theorem Standing.placed (h : Standing g w cs s behind) : Placed g w s.fs s.dev s.fp cs :=
  h.elim (fun h => h.opened.toPlaced) Ended.placed

theorem Standing.slot (h : Standing g w cs s behind) : Slot g w cs s.fp.toFilBase :=
  h.elim Streaming.slot Ended.slot

theorem Opened.used (h : Opened g w fs dev fp cs) : ∀ c ∈ cs, g.table w c ≠ 0 := by
  intro c hc
  obtain ⟨-, hchain⟩ := h.chain.resolve_left fun hno => by simp [hno.1] at hc
  exact (hchain.used hc).2

theorem Extends.allUsed (h : Extends g w cs w' cs') (hcs : ∀ c ∈ cs', g.Cluster c)
    (hused : ∀ c ∈ cs, g.table w c ≠ 0) : ∀ c ∈ cs', g.table w' c ≠ 0 := by
  intro c hc
  rcases h.taken c hc with hold | hnew
  · exact h.used c (hcs c hc) (hused c hold)
  · exact hnew

def RefusedCall (fp : Fil) (fs : Fatfs) (dev : Device) (c : FileCall) (res : FResult) : Prop :=
  ∀ post, Ensures deviceStep (c.run fp) fs dev post ↔ post (c.refuse res, fp) fs dev

theorem RefusedCall.executes {c : FileCall} {res : FResult} (h : RefusedCall fp fs dev c res)
    {answer : c.Answer} (hrun : Executes deviceStep (c.run fp) fs dev (answer, fp') fs' dev') :
    answer = c.refuse res ∧ fp' = fp ∧ fs' = fs ∧ dev' = dev := by
  have hend := ((h fun r fs' dev' => r = (c.refuse res, fp) ∧ fs' = fs ∧ dev' = dev).mpr
    ⟨rfl, rfl, rfl⟩).executes hrun
  rwa [Prod.mk.injEq, and_assoc] at hend

theorem refused_closed (hclosed : fp.attached = false) (c : FileCall) :
    RefusedCall fp fs dev c .invalidObject := by
  intro post
  cases c <;> simp [FileCall.run, FileCall.refuse, Fil.fRead, Fil.fWrite, Fil.fLseek, Fil.fClose,
    Fil.fSync, validate, hclosed, -bind_pure_comp]

theorem Placed.denied (h : Placed g w fs dev fp cs) (hg : g.Sound) (hatt : fp.attached = true)
    (herr : fp.err = .ok) :
    (fp.read = false → ∀ btr, RefusedCall fp fs dev (.fRead btr) .denied) ∧
      (fp.write = false → ∀ data, RefusedCall fp fs dev (.fWrite data) .denied) := by
  refine ⟨fun hread btr post => ?_, fun hwrite data post => ?_⟩
  · simp [FileCall.run, FileCall.refuse, Fil.fRead, h.validate hg hatt, herr, hread,
      -bind_pure_comp]
  · simp [FileCall.run, FileCall.refuse, Fil.fWrite, h.validate hg hatt, herr, hwrite,
      -bind_pure_comp]

theorem Placed.refused (h : Placed g w fs dev fp cs) (hg : g.Sound) (hatt : fp.attached = true)
    (herr : fp.err ≠ .ok) (c : FileCall) (hsync : c ≠ .fSync) (hclose : c ≠ .fClose) :
    RefusedCall fp fs dev c fp.err := by
  intro post
  cases c with
  | fSync => exact absurd rfl hsync
  | fClose => exact absurd rfl hclose
  | fRead | fWrite | fLseek =>
    simp [FileCall.run, FileCall.refuse, Fil.fRead, Fil.fWrite, Fil.fLseek, h.validate hg hatt,
      herr, -bind_pure_comp]

/-- What a call can have changed: the file and free clusters, or the entry. -/
structure Within (g : Geometry) (w : Sectors) (cs : List Nat) (fp : Fil) (w' : Sectors)
    (cs' : List Nat) (fp' : Fil) : Prop where
  change : Extends g w cs w' cs' ∨ w' = fp.recorded w ∧ cs' = cs
  dirSect : fp'.dirSect = fp.dirSect
  dirPtr : fp'.dirPtr = fp.dirPtr

def Proceeds (g : Geometry) (w : Sectors) (cs : List Nat) (s : FileState) (behind : Bool)
    (e : FileEvent) (s' : FileState) : Prop :=
  ∃ w' cs' behind', Within g w cs s.fp w' cs' s'.fp ∧
    streamStep (s.fp.stream g w cs behind) e (s'.fp.stream g w' cs' behind') ∧
    Standing g w' cs' s' behind'

def Accessed (g : Geometry) (w : Sectors) (cs : List Nat) (s : FileState) (behind : Bool)
    (e : FileEvent) (s' : FileState) : Prop :=
  ∃ w' cs', Within g w cs s.fp w' cs' s'.fp ∧
    ((s.fp.stream g w cs behind).moves e (s'.fp.stream g w' cs' behind) ∧
        Streaming g w' cs' s' behind ∨
      (s.fp.stream g w cs behind).fails e (s'.fp.stream g w' cs' behind) ∧ Ended g w' cs' s')

structure Labelled (g : Geometry) (e : FileEvent) (s' : FileState) : Prop where
  failed : e.failed = false → e.res ≠ .diskErr
  full : ∀ w' cs', Placed g w' s'.fs s'.dev s'.fp cs' → (e.full = true ↔ Full g w')
  reserved : ∀ w' cs', Placed g w' s'.fs s'.dev s'.fp cs' → (e.reserved = true ↔ Reserved g w')

theorem Labelled.fault (h : Labelled g e s') (herr : e.res = .diskErr) : e.failed = true := by
  by_contra hno
  exact h.failed (by simpa using hno) herr

theorem Labelled.fatal (h : Labelled g e s') (hfatal : Fatal g w' e.res)
    (hplaced : Placed g w' s'.fs s'.dev s'.fp cs') (hread : fp.write = false → e.res = .diskErr) :
    e.res = .diskErr ∧ e.failed = true ∨
      e.res = .intErr ∧ fp.write = true ∧ e.reserved = true := by
  refine hfatal.imp (fun hres => ⟨hres, h.fault hres⟩) fun hres => ⟨hres.1, ?_, ?_⟩
  · by_contra hno
    have hdisk := hread (by simpa using hno)
    rw [hres.1] at hdisk
    cases hdisk
  · exact (h.reserved w' cs' hplaced).mpr hres.2

theorem Fatal.ne_ok {res : FResult} (h : Fatal g w res) : res ≠ .ok := by
  rcases h with rfl | ⟨rfl, -⟩ <;> decide

theorem Streaming.fRead (h : Streaming g w cs ⟨fs, dev, fp⟩ behind) (hg : g.Sound)
    (hatt : fp.attached = true) {btr : Nat} (hone : btr ≤ 512) {answer : FResult × Bytes}
    {failed full reserved : Bool}
    (hrun : Executes deviceStep ((FileCall.fRead btr).run fp) fs dev (answer, fp') fs' dev')
    (hlabels : Labelled g ⟨⟨.fRead btr, answer⟩, failed, full, reserved⟩ ⟨fs', dev', fp'⟩) :
    Accessed g w cs ⟨fs, dev, fp⟩ behind ⟨⟨.fRead btr, answer⟩, failed, full, reserved⟩
      ⟨fs', dev', fp'⟩ := by
  have hopened : Opened g w fs dev fp cs := h.opened
  by_cases hread : fp.read = true
  · simp only [FileCall.run, executes_bind, executes_pure] at hrun
    obtain ⟨⟨res, fp', data⟩, fs₁, dev₁, hrun, heq, rfl, rfl⟩ := hrun
    cases heq
    obtain ⟨hplaced, hbase, n, hdata, hptr, houtcome⟩ :=
      (ensures_fRead hg hopened hatt hread hone).executes hrun
    dsimp only at hplaced hbase hdata hptr houtcome
    rw [List.nil_append] at hdata
    have hsect : fp'.dirSect = fp.dirSect := by rw [hbase]
    have hdir : fp'.dirPtr = fp.dirPtr := by rw [hbase]
    have hslot : Slot g w cs fp'.toFilBase := by
      rw [hbase]
      exact h.slot
    refine ⟨w, cs, ⟨.inl (.refl w cs), hsect, hdir⟩, ?_⟩
    rw [Fil.stream_ok hopened.noErr]
    rcases houtcome with ⟨rfl, rfl, hopened', hrest⟩ | ⟨rfl, herr, hn⟩
    · rw [Fil.stream_ok hopened'.noErr]
      refine .inl ⟨.inl ⟨rfl, hread, ?_, ?_⟩, hopened', hslot, ?_, ?_⟩
      · rw [hdata]
        exact (fileBytes_read btr).symm
      · simp only [Fil.content, hbase, hptr, hdata, length_fileBytes]
      · simp only [hbase, Fil.content] at *
        intro hchanged
        obtain ⟨hclean, hfile⟩ := h.saved hchanged
        exact ⟨hrest.buffer hclean, hfile⟩
      · dsimp only
        rw [hbase]
        exact fun hchanged hbehind => hrest.window (h.rest hchanged hbehind)
    · have hfailed : fp'.err ≠ .ok := by simp [herr]
      rw [Fil.stream_err hfailed]
      refine .inr ⟨⟨.inl ⟨rfl, hlabels.fault rfl⟩, ?_, ?_⟩, hplaced, hslot, hopened.used, hfailed⟩
      · change data <+: ((fp.content g cs w).drop fp.fptr).take btr
        rw [Fil.content, fileBytes_read, hdata]
        obtain ⟨k, hk⟩ := Nat.exists_eq_add_of_le hn.le
        rw [hk, fileBytes_add]
        exact List.prefix_append ..
      · rw [hbase, herr]
        rfl
  · have hno : fp.read = false := by simpa using hread
    have hdenied := (hopened.toPlaced.denied hg hatt hopened.noErr).1 hno btr
    obtain ⟨rfl, rfl, rfl, rfl⟩ := hdenied.executes hrun
    exact ⟨w, cs, ⟨.inl (.refl w cs), rfl, rfl⟩, .inl ⟨.inr ⟨rfl, hno, rfl, rfl⟩, h⟩⟩

theorem Streaming.fWrite (h : Streaming g w cs ⟨fs, dev, fp⟩ behind) (hg : g.Sound)
    (hatt : fp.attached = true) {data : Bytes} (hone : data.length ≤ 512) {answer : FResult × Nat}
    {failed full reserved : Bool}
    (hrun : Executes deviceStep ((FileCall.fWrite data).run fp) fs dev (answer, fp') fs' dev')
    (hlabels : Labelled g ⟨⟨.fWrite data, answer⟩, failed, full, reserved⟩ ⟨fs', dev', fp'⟩) :
    Accessed g w cs ⟨fs, dev, fp⟩ behind ⟨⟨.fWrite data, answer⟩, failed, full, reserved⟩
      ⟨fs', dev', fp'⟩ := by
  have hopened : Opened g w fs dev fp cs := h.opened
  by_cases hwrite : fp.write = true
  · simp only [FileCall.run, executes_bind, executes_pure] at hrun
    obtain ⟨⟨res, fp', bw⟩, fs₁, dev₁, hrun, heq, rfl, rfl⟩ := hrun
    cases heq
    obtain ⟨w', cs', n, ⟨hbw, hn⟩, hptr, hbase, hext, houtcome⟩ :=
      (ensures_fWrite hg hopened hatt hwrite hone).executes hrun
    dsimp only at hbw hptr hbase houtcome
    rw [Nat.zero_add] at hbw
    subst hbw
    have hsect : fp'.dirSect = fp.dirSect := by rw [hbase]
    have hdir : fp'.dirPtr = fp.dirPtr := by rw [hbase]
    have hslot : Slot g w' cs' fp'.toFilBase := h.slot.extend hext hsect hdir
    refine ⟨w', cs', ⟨.inl hext, hsect, hdir⟩, ?_⟩
    rw [Fil.stream_ok hopened.noErr]
    rcases houtcome with ⟨rfl, hfull, hopened', hsize, hwritten, hbytes⟩ |
      ⟨hfatal, herr, hlt, hplaced, -, hflag⟩
    · have hsome : bw ≤ data.length ∧ (0 < bw → fp.fptr + data.length < 2 ^ 32) := by
        split at hn
        · exact ⟨hn, fun _ => by assumption⟩
        · rw [List.length_nil] at hn
          exact ⟨by omega, fun hno => by omega⟩
      have hcount : if fp.fptr + data.length < 2 ^ 32
          then bw = data.length ∨ bw < data.length ∧ full = true else bw = 0 := by
        split
        · rename_i hfits
          rw [if_pos hfits] at hfull
          refine (Nat.eq_or_lt_of_le hsome.1).imp_right fun hshort => ⟨hshort, ?_⟩
          exact (hlabels.full w' cs' hopened'.toPlaced).mpr (hfull hshort)
        · omega
      have hcontent : fp'.content g cs' w' =
          overlay (fp.content g cs w) fp.fptr (data.take bw) := by
        rw [Fil.content, hsize]
        apply fileBytes_write hopened.fptr hsome.1
        intro i hi
        rw [hbytes i hi]
        by_cases hin : fp.fptr ≤ i ∧ i < fp.fptr + bw
        · rw [if_pos hin, if_pos hin, if_pos (hsome.2 (by omega))]
        · rw [if_neg hin, if_neg hin]
      have hnot : fp'.written = false → ¬True :=
        fun hno => absurd (hwritten.symm.trans hno) (by decide)
      rw [Fil.stream_ok hopened'.noErr]
      refine .inl ⟨.inl ⟨rfl, hwrite, hcount, ?_⟩, hopened', hslot,
        fun hno => absurd trivial (hnot hno), fun hno => absurd trivial (hnot hno)⟩
      simp only [hcontent, hptr, hwritten]
      rw [hbase]
    · have hfailed : fp'.err ≠ .ok := herr ▸ hfatal.ne_ok
      rw [Fil.stream_err hfailed]
      have hread : fp.write = false → res = .diskErr := fun hno => by simp [hwrite] at hno
      refine .inr ⟨⟨hlabels.fatal hfatal hplaced hread, ?_, ?_⟩, hplaced, hslot,
        hext.allUsed hplaced.clusters hopened.used, hfailed⟩
      · change bw < data.length
        split at hlt
        · exact hlt
        · simp at hlt
      · rw [hflag, hbase, herr]
        rfl
  · have hno : fp.write = false := by simpa using hwrite
    have hdenied := (hopened.toPlaced.denied hg hatt hopened.noErr).2 hno data
    obtain ⟨rfl, rfl, rfl, rfl⟩ := hdenied.executes hrun
    exact ⟨w, cs, ⟨.inl (.refl w cs), rfl, rfl⟩, .inl ⟨.inr ⟨rfl, hno, rfl, rfl⟩, h⟩⟩

theorem Streaming.fLseek (h : Streaming g w cs ⟨fs, dev, fp⟩ behind) (hg : g.Sound)
    (hatt : fp.attached = true) {ofs : Nat} (hofs : ofs < 2 ^ 32) {res : FResult}
    {failed full reserved : Bool}
    (hrun : Executes deviceStep (fp.fLseek ofs) fs dev (res, fp') fs' dev')
    (hlabels : Labelled g ⟨⟨.fLseek ofs, res⟩, failed, full, reserved⟩ ⟨fs', dev', fp'⟩) :
    Accessed g w cs ⟨fs, dev, fp⟩ behind ⟨⟨.fLseek ofs, res⟩, failed, full, reserved⟩
      ⟨fs', dev', fp'⟩ := by
  have hopened : Opened g w fs dev fp cs := h.opened
  obtain ⟨w', cs', hext, hkept, hbase, houtcome⟩ :=
    (ensures_fLseek hg hopened hatt hofs).executes hrun
  dsimp only at hbase houtcome
  have hsect : fp'.dirSect = fp.dirSect := by rw [hbase]
  have hdir : fp'.dirPtr = fp.dirPtr := by rw [hbase]
  have hslot : Slot g w' cs' fp'.toFilBase := h.slot.extend hext hsect hdir
  refine ⟨w', cs', ⟨.inl hext, hsect, hdir⟩, ?_⟩
  rw [Fil.stream_ok hopened.noErr]
  rcases houtcome with ⟨rfl, hopened', hle, hread, hshort, hsize, hwritten, hstill, hbytes⟩ |
    ⟨⟨hfatal, honly⟩, herr, hplaced, -, hflag⟩
  · have hfill : fp'.content g cs' w' = fp.content g cs w ++
        fileBytes g cs' w' fp.fsize (fp'.fsize - fp.fsize) :=
      fileBytes_stretch (by omega) hbytes
    have hlen : (fp.content g cs w).length = fp.fsize := length_fileBytes
    have hsame : fp'.written = false → fp.written = false ∧ w' = w ∧ cs' = cs ∧
        fp'.fsize = fp.fsize ∧ Rests fs fp.dirty fs' fp'.dirty := by
      intro hchanged
      have hin : fp.written = false ∧ fp'.fptr ≤ fp.fsize := by simpa [hwritten] using hchanged
      obtain ⟨rfl, rfl, hrest⟩ := hstill hin.2
      exact ⟨hin.1, rfl, rfl, by omega, hrest⟩
    rw [Fil.stream_ok hopened'.noErr]
    refine .inl ⟨⟨rfl, ?_⟩, hopened', hslot, fun hchanged => ?_, fun hchanged hbehind => ?_⟩
    · cases hmode : fp.write with
      | false =>
        have hptr := hread hmode
        have hsame : fp'.fsize = fp.fsize := by omega
        have hflag : fp'.written = fp.written := by
          rw [hwritten, decide_eq_false (by omega), Bool.or_false]
        rw [hsame, Nat.sub_self, fileBytes_zero, List.append_nil] at hfill
        refine .inl ⟨rfl, ?_⟩
        simp only [hfill, hflag, hptr, hlen]
        rw [hbase, ← hmode]
      | true =>
        have hmore : decide (fileBytes g cs' w' fp.fsize (fp'.fsize - fp.fsize) ≠ []) =
            decide (fp.fsize < fp'.fptr) := by
          rw [decide_eq_decide, ← List.length_pos_iff, length_fileBytes]
          omega
        refine .inr ⟨rfl, fileBytes g cs' w' fp.fsize (fp'.fsize - fp.fsize), fp'.fptr, ?_, ?_, ?_⟩
        · refine (Nat.eq_or_lt_of_le hle).imp_right fun hlt => ?_
          obtain ⟨hfull, hend⟩ := hshort hmode hlt
          exact ⟨(hlabels.full w' cs' hopened'.toPlaced).mpr hfull, hlen.trans_le hend, hlt⟩
        · simp only [hlen, length_fileBytes]
          omega
        · simp only [hfill, hmore, hwritten]
          rw [hbase, ← hmode]
    · obtain ⟨hbefore, rfl, rfl, hsize, hrest⟩ := hsame hchanged
      obtain ⟨hclean, hfile⟩ := h.saved hbefore
      rw [hsize, Nat.sub_self, fileBytes_zero, List.append_nil] at hfill
      refine ⟨hrest.buffer hclean, ?_⟩
      dsimp only at hfile ⊢
      rw [hsect, hdir, hfill]
      exact hfile
    · obtain ⟨hbefore, -, -, -, hrest⟩ := hsame hchanged
      exact hrest.window (h.rest hbefore hbehind)
  · have hfailed : fp'.err ≠ .ok := herr ▸ hfatal.ne_ok
    rw [Fil.stream_err hfailed]
    refine .inr ⟨⟨hlabels.fatal hfatal hplaced honly, trivial, ?_⟩, hplaced, hslot,
      hext.allUsed hplaced.clusters hopened.used, hfailed⟩
    rw [hflag, hbase, herr]
    rfl

theorem Linked.record {base : FilBase} (h : Linked g w base cs) (hg : g.Sound)
    (hcs : ∀ c ∈ cs, g.Cluster c) (hslot : Slot g w cs fp.toFilBase) :
    Linked g (fp.recorded w) base cs := by
  refine ⟨h.chain.imp_right fun hchain => ⟨hchain.1, hchain.2.frame fun k hk => ?_⟩, h.size,
    h.small⟩
  exact table_update hg hslot.elsewhere.outside _ (hcs k hk)

theorem Slot.sector_ne (hslot : Slot g w cs fp.toFilBase) (hg : g.Sound)
    (hcs : ∀ c ∈ cs, g.Cluster c) {q : Nat} (hq : FileHas g cs q) :
    fp.recorded w (fileSect g cs q) = w (fileSect g cs q) :=
  Function.update_of_ne (hslot.elsewhere.ne hg hcs hq).symm _ _

theorem Slot.record (hslot : Slot g w cs fp.toFilBase) (hg : g.Sound) :
    Slot g (fp.recorded w) cs fp.toFilBase :=
  ⟨hslot.elsewhere.congr fun _ hc => table_update hg hslot.elsewhere.outside _ hc, hslot.primary,
    hslot.low, hslot.fits⟩

theorem Opened.synced (h : Opened g w fs dev fp cs) (hg : g.Sound)
    (hslot : Slot g w cs fp.toFilBase) (hplaced : Placed g w' fs' dev' fp' cs)
    (hfil : ∃ dirty written, fp' = { fp with dirty := dirty, written := written })
    (hw : w' = w ∨ w' = fp.recorded w) : Opened g w' fs' dev' fp' cs := by
  obtain ⟨dirty, written, rfl⟩ := hfil
  have hsame : ∀ q, FileHas g cs q → w' (fileSect g cs q) = w (fileSect g cs q) := by
    intro q hq
    rcases hw with rfl | rfl
    · rfl
    · exact hslot.sector_ne hg h.clusters hq
  have hlinked : Linked g w' fp.toFilBase cs := by
    rcases hw with rfl | rfl
    · exact h.toLinked
    · exact h.toLinked.record hg h.clusters hslot
  refine ⟨hplaced, ⟨hlinked.chain, hlinked.size, hlinked.small⟩, h.noErr, h.fptr, h.clust, h.inBuf,
    fun hdsect => ?_⟩
  obtain ⟨⟨q, hq, hsect⟩, hbuf⟩ := h.buffer hdsect
  refine ⟨⟨q, hq, hsect⟩, hbuf.trans ?_⟩
  change w fp.dsect = w' fp.dsect
  rw [hsect, hsame q hq]

section Synced
variable (hg : g.Sound) {res : FResult} {failed : Bool}
  (hsynced : Synchronized g w fs fp cs (res, fp') fs' dev' w')
  (hquiet : res = .diskErr → failed = true)
include hg hsynced hquiet

theorem Streaming.synced (h : Streaming g w cs ⟨fs, dev, fp⟩ behind) :
    ∃ behind', Within g w cs fp w' cs fp' ∧
      (fp.stream g w cs behind).syncs res failed (fp'.stream g w' cs behind') ∧
      Streaming g w' cs ⟨fs', dev', fp'⟩ behind' := by
  have hopened : Opened g w fs dev fp cs := h.opened
  have hslot : Slot g w cs fp.toFilBase := h.slot
  obtain ⟨hplaced, ⟨dirty, written, hfil⟩, -, houtcome⟩ := hsynced
  dsimp only at hplaced hfil houtcome
  have hstill := hopened.synced hg hslot hplaced ⟨dirty, written, hfil⟩
  have hdir : fp'.dirSect = fp.dirSect ∧ fp'.dirPtr = fp.dirPtr := by
    rw [hfil]
    exact ⟨rfl, rfl⟩
  have hstream : ∀ behind', fp'.content g cs w' = fp.content g cs w →
      fp'.stream g w' cs behind' =
        { fp.stream g w cs behind with changed := written, behind := behind' } := by
    intro behind' hcontent
    rw [Fil.stream, hcontent, hfil]
    rfl
  rcases houtcome with ⟨rfl, hclean, rfl, rfl, rfl⟩ | ⟨rfl, hwritten, hflag, rfl⟩ |
    ⟨hwritten, hflag, hbuf, rfl, hend⟩
  · exact ⟨behind, ⟨.inl (.refl _ _), rfl, rfl⟩, .inl ⟨rfl, hclean, rfl⟩, hstill (.inl rfl), hslot,
      h.saved, h.rest⟩
  · subst hfil
    obtain rfl : written = true := hflag
    refine ⟨behind, ⟨.inl (.refl _ _), rfl, rfl⟩,
      .inr (.inr ⟨⟨rfl, hquiet rfl⟩, hwritten, .inl ?_⟩),
      hstill (.inl rfl), ⟨hslot.elsewhere, hslot.primary, hslot.low, hslot.fits⟩,
      fun hno => absurd hno (by simp), fun hno => absurd hno (by simp)⟩
    rw [hstream behind rfl]
    simp only [Fil.stream, hwritten]
  · -- the entry has gone into the window
    have hcontent : fp'.content g cs (fp.recorded w) = fp.content g cs w := by
      rw [Fil.content, hfil]
      exact fileBytes_of_sectors hopened.size fun q hq => hslot.sector_ne hg hopened.clusters hq
    have hrecord : Slot g (fp.recorded w) cs fp'.toFilBase := by
      have hkept := hslot.record hg
      rw [hfil]
      exact ⟨hkept.elsewhere, hkept.primary, hkept.low, hkept.fits⟩
    have hfile := hopened.toPlaced.fileAt hopened.toLinked hg hslot
    obtain rfl : written = false := by
      rw [hfil] at hflag
      exact hflag
    have hsaved : fp'.written = false → fp'.dirty = false ∧ FileAt g (fp.recorded w) fp'.dirSect
        fp'.dirPtr (fp'.content g cs (fp.recorded w)) cs := by
      rw [hdir.1, hdir.2, hcontent]
      exact fun _ => ⟨hbuf, hfile⟩
    rcases hend with ⟨rfl, hrest⟩ | rfl
    · exact ⟨false, ⟨.inr ⟨rfl, rfl⟩, hdir.1, hdir.2⟩,
        .inr (.inl ⟨rfl, hwritten, hstream false hcontent⟩), hstill (.inr rfl), hrecord, hsaved,
        fun _ _ => hrest⟩
    · exact ⟨true, ⟨.inr ⟨rfl, rfl⟩, hdir.1, hdir.2⟩,
        .inr (.inr ⟨⟨rfl, hquiet rfl⟩, hwritten, .inr (hstream true hcontent)⟩), hstill (.inr rfl),
        hrecord, hsaved, fun _ hno => absurd hno (by decide)⟩

theorem Ended.synced (h : Ended g w cs ⟨fs, dev, fp⟩) :
    ∃ behind', Within g w cs fp w' cs fp' ∧
      (fp.stream g w cs behind).syncs res failed (fp'.stream g w' cs behind') ∧
      Ended g w' cs ⟨fs', dev', fp'⟩ := by
  have hslot : Slot g w cs fp.toFilBase := h.slot
  have herr : fp.err ≠ .ok := h.failed
  obtain ⟨hplaced, ⟨dirty, written, hfil⟩, -, houtcome⟩ := hsynced
  dsimp only at hplaced hfil houtcome
  subst hfil
  have hkept : ∀ behind',
      Fil.stream { fp with dirty := dirty, written := written } g w' cs behind' =
      { fp.stream g w cs behind with changed := written, behind := behind' } := by
    intro behind'
    simp [Fil.stream, herr]
  rcases houtcome with ⟨rfl, hclean, hsame, rfl, -⟩ | ⟨rfl, hwritten, rfl, rfl⟩ |
    ⟨hwritten, rfl, -, rfl, hend⟩
  · obtain rfl : written = fp.written := congrArg (fun fp : Fil => fp.written) hsame
    exact ⟨behind, ⟨.inl (.refl _ _), rfl, rfl⟩, .inl ⟨rfl, hclean, hkept behind⟩, hplaced,
      ⟨hslot.elsewhere, hslot.primary, hslot.low, hslot.fits⟩, h.used, herr⟩
  · refine ⟨behind, ⟨.inl (.refl _ _), rfl, rfl⟩,
      .inr (.inr ⟨⟨rfl, hquiet rfl⟩, hwritten, .inl ?_⟩),
      hplaced, ⟨hslot.elsewhere, hslot.primary, hslot.low, hslot.fits⟩, h.used, herr⟩
    rw [hkept]
    simp only [Fil.stream, hwritten]
  · have hrecord := hslot.record hg
    have hused : ∀ c ∈ cs, g.table (fp.recorded w) c ≠ 0 := by
      intro c hc
      rw [show g.table (fp.recorded w) c = g.table w c from
        table_update hg hslot.elsewhere.outside _ (hplaced.clusters c hc)]
      exact h.used c hc
    have hstill : Ended g (fp.recorded w) cs
        ⟨fs', dev', { fp with dirty := dirty, written := false }⟩ :=
      ⟨hplaced, ⟨hrecord.elsewhere, hrecord.primary, hrecord.low, hrecord.fits⟩, hused, herr⟩
    rcases hend with ⟨rfl, -⟩ | rfl
    · exact ⟨false, ⟨.inr ⟨rfl, rfl⟩, rfl, rfl⟩, .inr (.inl ⟨rfl, hwritten, hkept false⟩), hstill⟩
    · exact ⟨true, ⟨.inr ⟨rfl, rfl⟩, rfl, rfl⟩,
        .inr (.inr ⟨⟨rfl, hquiet rfl⟩, hwritten, .inr (hkept true)⟩), hstill⟩

theorem Standing.synced (h : Standing g w cs ⟨fs, dev, fp⟩ behind) :
    ∃ behind', Within g w cs fp w' cs fp' ∧
      (fp.stream g w cs behind).syncs res failed (fp'.stream g w' cs behind') ∧
      Standing g w' cs ⟨fs', dev', fp'⟩ behind' := by
  rcases h with h | h
  · obtain ⟨behind', hwithin, hsyncs, hnext⟩ := h.synced hg hsynced hquiet
    exact ⟨behind', hwithin, hsyncs, .inl hnext⟩
  · obtain ⟨behind', hwithin, hsyncs, hnext⟩ := h.synced hg hsynced hquiet
    exact ⟨behind', hwithin, hsyncs, .inr hnext⟩

end Synced

theorem Standing.detach (h : Standing g w cs ⟨fs, dev, fp⟩ behind) (attached : Bool) :
    Standing g w cs ⟨fs, dev, { fp with attached := attached }⟩ behind := by
  rcases h with ⟨⟨hplaced, hlinked, herr, hfptr, hclust, hinBuf, hbuffer⟩, hslot, hsaved, hrest⟩ |
    ⟨hplaced, hslot, hused, herr⟩
  · exact .inl ⟨⟨⟨hplaced.shows, hplaced.id, hplaced.clusters, hplaced.nodup, hplaced.loaded,
      hplaced.apart⟩, ⟨hlinked.chain, hlinked.size, hlinked.small⟩, herr, hfptr, hclust, hinBuf,
      hbuffer⟩, ⟨hslot.elsewhere, hslot.primary, hslot.low, hslot.fits⟩, hsaved, hrest⟩
  · exact .inr ⟨⟨hplaced.shows, hplaced.id, hplaced.clusters, hplaced.nodup, hplaced.loaded,
      hplaced.apart⟩, ⟨hslot.elsewhere, hslot.primary, hslot.low, hslot.fits⟩, hused, herr⟩

theorem Streaming.onDevice (h : Streaming g w cs s behind) (hg : g.Sound)
    (hchanged : s.fp.written = false) (hrest : s.fs.wflag = false) :
    FileAt g s.dev.sectors s.fp.dirSect s.fp.dirPtr (s.fp.content g cs w) cs := by
  obtain ⟨hclean, hfile⟩ := h.saved hchanged
  exact hfile.congr hg h.slot.primary fun n hn => h.opened.durable ⟨hrest, hclean⟩ hn

theorem RefusedCall.step {res : FResult} (hrefused : RefusedCall s.fp s.fs s.dev e.call res)
    (hstep : fileStep s e s') : e.answer = e.call.refuse res ∧ s' = s := by
  obtain ⟨-, hrun, -⟩ := hstep
  obtain ⟨hanswer, hfp, hfs, hdev⟩ := hrefused.executes hrun.forget
  obtain ⟨fs', dev', fp'⟩ := s'
  obtain rfl : fp' = s.fp := hfp
  obtain rfl : fs' = s.fs := hfs
  obtain rfl : dev' = s.dev := hdev
  exact ⟨hanswer, rfl⟩

theorem Streaming.starts (h : Streaming g w cs s behind) (hg : g.Sound) : s.fp.Starts := by
  have hlt := hg.nFatent_lt
  unfold FilBase.Starts diskError
  rcases h.opened.chain with ⟨-, hnone⟩ | ⟨⟨-, hhigh⟩, -⟩
  · rw [hnone]
    decide
  · omega

theorem maintains_access (hg : g.Sound) {P : Nat → Prop} (hP : Allows g P) (fp : Fil) {c : FileCall}
    (hsync : c ≠ .fSync) (hclose : c ≠ .fClose) :
    Maintains (Around g P) failedTransfer (c.run fp)
      (fun r => fp.err = .ok → fp.Starts → c.result r.1 ≠ .diskErr) := by
  cases c with
  | fRead btr => exact (maintains_fRead hg hP fp btr).bind fun _ => maintains_pure id
  | fWrite data => exact (maintains_fWrite hg hP fp data).bind fun _ => maintains_pure id
  | fLseek ofs => exact maintains_fLseek hg hP fp ofs
  | fSync => exact absurd rfl hsync
  | fClose => exact absurd rfl hclose

theorem fileStep_labelled (hg : g.Sound) (hplaced : Placed g w s.fs s.dev s.fp cs)
    (huse : s.fp.err = .ok ∧ s.fp.Starts ∨ e.call = .fSync ∨ e.call = .fClose)
    (hstep : fileStep s e s') : Labelled g e s' := by
  obtain ⟨v, hshows, -⟩ := hplaced.shows
  have hstart : Around g (fun _ => True) s.fs := ⟨hshows.geometry, trivial⟩
  have hP := allows_all g
  obtain ⟨-, hrun, hfull, hreserved⟩ := hstep
  refine ⟨fun hquiet => ?_, fun w' cs' h' => ?_, fun w' cs' h' => ?_⟩
  · rw [hquiet] at hrun
    obtain ⟨⟨call, answer⟩, failed, full, reserved⟩ := e
    by_cases hcall : call = .fSync ∨ call = .fClose
    · rcases hcall with rfl | rfl
      · exact ((maintains_fSync hg _).executes hstart hrun).2 rfl
      · exact ((maintains_fClose hg _).executes hstart hrun).2 rfl
    · obtain ⟨hsync, hclose⟩ := not_or.mp hcall
      obtain ⟨herr, hstarts⟩ := huse.resolve_right hcall
      exact ((maintains_access hg hP _ hsync hclose).executes hstart hrun).2 rfl herr hstarts
  · rw [hfull, decide_eq_true_iff]
    exact h'.full hg
  · rw [hreserved, decide_eq_true_iff]
    exact h'.reserved hg

theorem Streaming.access (h : Streaming g w cs s behind) (hg : g.Sound)
    (hatt : s.fp.attached = true) (hsync : e.call ≠ .fSync) (hclose : e.call ≠ .fClose)
    (hstep : fileStep s e s') : Accessed g w cs s behind e s' := by
  have hlabels := fileStep_labelled hg h.opened.toPlaced (.inl ⟨h.opened.noErr, h.starts hg⟩) hstep
  obtain ⟨hfits, hrun, -⟩ := hstep
  replace hrun := hrun.forget
  obtain ⟨⟨call, answer⟩, failed, full, reserved⟩ := e
  cases call with
  | fRead btr => exact h.fRead hg hatt hfits hrun hlabels
  | fWrite data => exact h.fWrite hg hatt hfits hrun hlabels
  | fLseek ofs => exact h.fLseek hg hatt hfits hrun hlabels
  | fSync => exact absurd rfl hsync
  | fClose => exact absurd rfl hclose

theorem Standing.fSync (h : Standing g w cs ⟨fs, dev, fp⟩ behind) (hg : g.Sound)
    (hatt : fp.attached = true) {res : FResult} {failed full reserved : Bool}
    (hrun : Executes deviceStep fp.fSync fs dev (res, fp') fs' dev')
    (hlabels : Labelled g ⟨⟨.fSync, res⟩, failed, full, reserved⟩ ⟨fs', dev', fp'⟩) :
    Proceeds g w cs ⟨fs, dev, fp⟩ behind ⟨⟨.fSync, res⟩, failed, full, reserved⟩
      ⟨fs', dev', fp'⟩ := by
  obtain ⟨w', hsynced⟩ := (ensures_fSync hg h.placed hatt h.slot).executes hrun
  obtain ⟨behind', hwithin, hsyncs, hnext⟩ := h.synced hg hsynced hlabels.fault
  exact ⟨w', cs, behind', hwithin, (streamStep_fSync hatt).mpr hsyncs, hnext⟩

theorem Standing.fClose (h : Standing g w cs ⟨fs, dev, fp⟩ behind) (hg : g.Sound)
    (hatt : fp.attached = true) {res : FResult} {failed full reserved : Bool}
    (hrun : Executes deviceStep fp.fClose fs dev (res, fp') fs' dev')
    (hlabels : Labelled g ⟨⟨.fClose, res⟩, failed, full, reserved⟩ ⟨fs', dev', fp'⟩) :
    Proceeds g w cs ⟨fs, dev, fp⟩ behind ⟨⟨.fClose, res⟩, failed, full, reserved⟩
      ⟨fs', dev', fp'⟩ := by
  obtain ⟨fp₁, w', hsynced, hfil⟩ := (ensures_fClose hg h.placed hatt h.slot).executes hrun
  obtain ⟨behind', hwithin, hsyncs, hnext⟩ := h.synced hg hsynced hlabels.fault
  have hatt' : fp₁.attached = true := by
    obtain ⟨dirty, written, rfl⟩ := hsynced.fil
    exact hatt
  obtain rfl : fp' = { fp₁ with attached := decide (res ≠ .ok) } := by
    refine hfil.trans ?_
    by_cases hok : res = .ok
    · simp [hok]
    · simp [hok, ← hatt']
  exact ⟨w', cs, behind', ⟨hwithin.change, hwithin.dirSect, hwithin.dirPtr⟩,
    (streamStep_fClose hatt).mpr ⟨_, hsyncs, rfl⟩, hnext.detach _⟩

theorem Standing.step (h : Standing g w cs s behind) (hg : g.Sound) (hstep : fileStep s e s') :
    Proceeds g w cs s behind e s' := by
  cases hatt : s.fp.attached with
  | false =>
    obtain ⟨hanswer, rfl⟩ := (refused_closed hatt e.call).step hstep
    exact ⟨w, cs, behind, ⟨.inl (.refl w cs), rfl, rfl⟩,
      (streamStep_closed hatt).mpr ⟨hanswer, rfl⟩, h⟩
  | true =>
    by_cases hcall : e.call = .fSync ∨ e.call = .fClose
    · have hlabels := fileStep_labelled hg h.placed (.inr hcall) hstep
      obtain ⟨-, hrun, -⟩ := hstep
      replace hrun := hrun.forget
      obtain ⟨⟨call, answer⟩, failed, full, reserved⟩ := e
      rcases hcall with rfl | rfl
      · exact h.fSync hg hatt hrun hlabels
      · exact h.fClose hg hatt hrun hlabels
    obtain ⟨hsync, hclose⟩ := not_or.mp hcall
    rcases h with h | h
    · obtain ⟨w', cs', hwithin, hnext⟩ := h.access hg hatt hsync hclose hstep
      refine ⟨w', cs', behind, hwithin, (streamStep_access hatt hsync hclose).mpr ?_,
        hnext.imp And.right And.right⟩
      have herr : (s.fp.stream g w cs behind).err = .ok := h.opened.noErr
      rw [if_pos herr]
      exact hnext.imp And.left And.left
    · obtain ⟨hanswer, rfl⟩ :=
        (h.placed.refused hg hatt h.failed e.call hsync hclose).step hstep
      refine ⟨w, cs, behind, ⟨.inl (.refl w cs), rfl, rfl⟩,
        (streamStep_access hatt hsync hclose).mpr ?_, .inr h⟩
      have herr : (s'.fp.stream g w cs behind).err ≠ .ok := h.failed
      rw [if_neg herr]
      exact ⟨hanswer, rfl⟩

end Simulation

section Others
variable {g : Geometry} {w w' : Sectors} {cs cs' other : List Nat} {fs : Fatfs} {dev : Device}
  {fp : Fil} {base : FilBase} {sect ptr q : Nat} {content : Bytes}

structure Beside (g : Geometry) (w : Sectors) (cs : List Nat) (base : FilBase) (sect ptr : Nat)
    (other : List Nat) : Prop where
  entry : Elsewhere g w cs sect
  slots : sect ≠ base.dirSect ∨ ptr + 32 ≤ base.dirPtr ∨ base.dirPtr + 32 ≤ ptr
  apart : ∀ c ∈ other, c ∉ cs
  dir : ∀ q, FileHas g other q → fileSect g other q ≠ base.dirSect

theorem Beside.sectors (h : Beside g w cs base sect ptr other) (hg : g.Sound)
    (hspares : Spares g base.dirSect base.dirPtr w cs w' cs') (hcs : ∀ c ∈ other, g.Cluster c)
    (hused : ∀ c ∈ other, g.table w c ≠ 0) (hq : FileHas g other q) :
    w' (fileSect g other q) = w (fileSect g other q) := by
  have helsewhere : Elsewhere g w cs (fileSect g other q) := by
    refine ⟨(hq.data hg hcs).not_inFat hg, fun c r hc hr hsect => ?_⟩
    have hlt := hq.div_lt
    obtain ⟨rfl, -⟩ := clusterSect_inj (hq.cluster hcs) hc (Nat.mod_lt _ hg.csize_pos) hr hsect
    rw [List.getD_eq_getElem _ _ hlt]
    exact ⟨h.apart _ (List.getElem_mem hlt), hused _ (List.getElem_mem hlt)⟩
  have hsame := hspares.ext.sectors _ helsewhere
  rwa [Function.update_of_ne (h.dir q hq)] at hsame

theorem Beside.table (h : Beside g w cs base sect ptr other) (hg : g.Sound)
    (hspares : Spares g base.dirSect base.dirPtr w cs w' cs') (hdir : ¬g.InFat base.dirSect)
    (hcs : ∀ c ∈ other, g.Cluster c) (hused : ∀ c ∈ other, g.table w c ≠ 0) :
    ∀ c ∈ other, g.table w' c = g.table w c := by
  intro c hc
  have hsame := hspares.ext.table c (hcs c hc) (h.apart c hc) (hused c hc)
  rwa [table_update hg hdir _ (hcs c hc)] at hsame

theorem FileAt.used (h : FileAt g w sect ptr content other) : ∀ c ∈ other, g.table w c ≠ 0 := by
  intro c hc
  obtain ⟨-, hchain⟩ := h.chain.resolve_left fun hno => by simp [hno.1] at hc
  exact (hchain.used hc).2

theorem entry_bytes {win win' : Sector} (h : ∀ j, ptr ≤ j → j < ptr + 32 → win'.get j = win.get j) :
    ldClust g win' ptr = ldClust g win ptr ∧ ldDword win' (ptr + 28) = ldDword win (ptr + 28) := by
  have hword : ∀ k, k + 1 < 32 → ldWord win' (ptr + k) = ldWord win (ptr + k) := by
    intro k hk
    rw [ldWord, ldWord, h _ (by omega) (by omega), h _ (by omega) (by omega)]
  refine ⟨?_, ?_⟩
  · rw [ldClust, ldClust, hword 26 (by omega), hword 20 (by omega)]
  · simp only [ldDword, h (ptr + 28) (by omega) (by omega), h (ptr + 28 + 1) (by omega) (by omega),
      h (ptr + 28 + 2) (by omega) (by omega), h (ptr + 28 + 3) (by omega) (by omega)]

theorem Spares.fileAt (h : Spares g base.dirSect base.dirPtr w cs w' cs') (hg : g.Sound)
    (hdir : ¬g.InFat base.dirSect) (hfile : FileAt g w sect ptr content other)
    (hbeside : Beside g w cs base sect ptr other) : FileAt g w' sect ptr content other := by
  have hbytes : ∀ j, ptr ≤ j → j < ptr + 32 → (w' sect).get j = (w sect).get j := by
    intro j hlow hhigh
    by_cases hsect : sect = base.dirSect
    · have hslots := hbeside.slots.resolve_left fun hno => hno hsect
      rw [hsect]
      exact h.entry j (by omega)
    · have hsame := h.ext.sectors sect hbeside.entry
      rw [Function.update_of_ne hsect] at hsame
      rw [hsame]
  obtain ⟨hclust, hlen⟩ :
      ldClust g (w' sect) ptr = ldClust g (w sect) ptr ∧
        ldDword (w' sect) (ptr + 28) = ldDword (w sect) (ptr + 28) :=
    entry_bytes hbytes
  refine ⟨?_, ?_, hfile.room, ?_⟩
  · rw [hclust]
    exact hfile.chain.imp_right fun hfirst => ⟨hfirst.1, hfirst.2.frame fun k hk =>
      hbeside.table hg h hdir hfile.clusters hfile.used k hk⟩
  · rw [hlen]
    exact hfile.size
  · rw [← hfile.bytes, length_fileBytes]
    exact fileBytes_of_sectors hfile.room fun q hq =>
      hbeside.sectors hg h hfile.clusters hfile.used hq

end Others

section Runs
variable {g : Geometry} {w w' w'' : Sectors} {cs cs' cs'' : List Nat} {s s' : FileState}
  {fp fp' : Fil} {t : List FileEvent} {behind : Bool}

/-- Whatever the device does, a file object is a byte stream; and as long as it has no error,
whenever there is nothing to be synchronized, and nothing has been so in vain, the device alone has
the file. -/
theorem stream_run (hg : g.Sound) (h : Streaming g w cs s behind)
    (hrun : Follows fileStep s t s') :
    ∃ σ cs', Follows streamStep (s.fp.stream g w cs behind) t σ ∧
      (σ.err = .ok → σ.changed = false → σ.behind = false →
        FileAt g s'.dev.sectors s.fp.dirSect s.fp.dirPtr σ.data cs') := by
  obtain ⟨σ, hfollows, w', cs', behind', hend, hsect, hptr, rfl⟩ := hrun.refines
    (fun s' σ => ∃ w' cs' behind', Standing g w' cs' s' behind' ∧ s'.fp.dirSect = s.fp.dirSect ∧
      s'.fp.dirPtr = s.fp.dirPtr ∧ s'.fp.stream g w' cs' behind' = σ) id
    (by
      rintro s₁ e s₂ _ ⟨w₁, cs₁, behind₁, hstanding, hsect, hptr, rfl⟩ hstep
      obtain ⟨w₂, cs₂, behind₂, hwithin, hstream, hnext⟩ := hstanding.step hg hstep
      exact ⟨_, hstream, w₂, cs₂, behind₂, hnext, hwithin.dirSect.trans hsect,
        hwithin.dirPtr.trans hptr, rfl⟩)
    ⟨w, cs, behind, .inl h, rfl, rfl, rfl⟩
  rw [List.map_id] at hfollows
  refine ⟨_, cs', hfollows, fun herr hchanged hbehind => ?_⟩
  rcases hend with hend | hend
  · rw [Fil.stream_ok herr, ← hsect, ← hptr]
    exact hend.onDevice hg hchanged (hend.rest hchanged hbehind)
  · exact absurd herr hend.failed

/-- A new file, in the entry at byte `ptr` of the first sector of the root directory. -/
def newFil (g : Geometry) (ptr : Nat) : Fil where
  attached := true
  id := g.id
  read := true
  write := true
  written := false
  fsize := 0
  sclust := 0
  dirSect := g.dirbase
  dirPtr := ptr
  dirty := false
  err := .ok
  fptr := 0
  clust := 0
  dsect := 0
  buf := .zero

theorem floppy_root (w : Sectors) (cs : List Nat) : Elsewhere floppy w cs 19 := by
  refine ⟨by simp [Geometry.InFat, floppy], fun c r _ _ hsect => ?_⟩
  simp only [clusterSect, floppy] at hsect
  omega

theorem fileAt_blank (ptr : Nat) : FileAt floppy (fun _ => .zero) 19 ptr [] [] where
  chain := .inl ⟨rfl, by simp [ldClust, ldWord, floppy]⟩
  size := by simp [ldDword]
  room := by simp
  bytes := rfl

theorem streaming_new {ptr : Nat} (hptr : ptr + 32 ≤ 512) :
    Streaming floppy (fun _ => .zero) []
      ⟨(blank floppy).1, (blank floppy).2, newFil floppy ptr⟩ false where
  opened :=
    { shows := ⟨_, blank_shows floppy, rfl⟩, id := rfl, clusters := by simp
      nodup := .nil, loaded := fun hno => absurd hno Bool.false_ne_true
      apart := fun q hq => absurd hq (by simp [FileHas]), chain := .inl ⟨rfl, rfl⟩
      size := Nat.zero_le _, small := Nat.two_pow_pos 32, noErr := rfl
      fptr := Nat.le_refl _, clust := fun hno => absurd rfl hno, inBuf := fun hno => absurd rfl hno
      buffer := fun hno => absurd rfl hno }
  slot := ⟨floppy_root _ _, by simp [Geometry.Primary, newFil, floppy],
    by simp [newFil, floppy], hptr⟩
  saved := fun _ => ⟨rfl, fileAt_blank ptr⟩
  rest := fun _ _ => rfl

theorem fileStep_quiet {fs fs' : Fatfs} {dev dev' : Device} {c : FileCall} {answer : c.Answer}
    (hfits : c.Fits)
    (hrun : Executes notedStep (c.run fp) fs (dev, false) (answer, fp') fs' (dev', false)) :
    ∃ full reserved, fileStep ⟨fs, dev, fp⟩ ⟨⟨c, answer⟩, false, full, reserved⟩
      ⟨fs', dev', fp'⟩ :=
  ⟨_, _, hfits, hrun, rfl, rfl⟩

theorem stream_run_floppy : ∃ (t : List FileEvent) (dev : Device) (σ : Stream) (cs' : List Nat),
    t.map FileEvent.toEvent = [⟨.fWrite [72, 105], (.ok, 2)⟩, ⟨.fLseek 1, .ok⟩,
      ⟨.fRead 5, (.ok, [105])⟩, ⟨.fSync, .ok⟩, ⟨.fClose, .ok⟩] ∧
    Follows streamStep ⟨true, .ok, true, true, [], 0, false, false⟩ t σ ∧
      (σ.err = .ok → σ.changed = false → σ.behind = false →
        FileAt floppy dev.sectors 19 0 σ.data cs') := by
  obtain ⟨fs, dev, hplay⟩ := exists_executes_quiet
    (s := (blank floppy).1) (w := (blank floppy).2)
    (p := do
      let r ← (FileCall.fWrite [72, 105]).run (newFil floppy 0)
      let r₁ ← (FileCall.fLseek 1).run r.2
      let r₂ ← (FileCall.fRead 5).run r₁.2
      let r₃ ← FileCall.fSync.run r₂.2
      let r₄ ← FileCall.fClose.run r₃.2
      pure (r.1, r₁.1, r₂.1, r₃.1, r₄.1))
    (a := ((.ok, 2), .ok, (.ok, [105]), .ok, .ok)) Device.serve_step Device.serve_quiet
    (by decide +kernel)
  simp only [executes_bind_quiet, executes_pure] at hplay
  obtain ⟨⟨_, fp₁⟩, fs₁, dev₁, hwrite, ⟨_, fp₂⟩, fs₂, dev₂, hseek, ⟨_, fp₃⟩, fs₃, dev₃, hread,
    ⟨_, fp₄⟩, fs₄, dev₄, hsync, ⟨_, fp₅⟩, fs₅, dev₅, hclose, hres, -, -⟩ := hplay
  cases hres
  obtain ⟨_, _, hwrite⟩ := fileStep_quiet (by decide) hwrite
  obtain ⟨_, _, hseek⟩ := fileStep_quiet (by decide) hseek
  obtain ⟨_, _, hread⟩ := fileStep_quiet (by decide) hread
  obtain ⟨_, _, hsync⟩ := fileStep_quiet (by decide) hsync
  obtain ⟨_, _, hclose⟩ := fileStep_quiet (by decide) hclose
  have hrun : Follows fileStep ⟨(blank floppy).1, (blank floppy).2, newFil floppy 0⟩ [_, _, _, _, _]
      ⟨fs₅, dev₅, fp₅⟩ := ⟨_, hwrite, _, hseek, _, hread, _, hsync, _, hclose, rfl⟩
  obtain ⟨σ, cs', hstream⟩ := stream_run floppy_sound (streaming_new (by decide)) hrun
  exact ⟨_, dev₅, σ, cs', rfl, hstream⟩

theorem Within.spares (h : Within g w' cs' fp w'' cs'' fp') (hg : g.Sound)
    (hslot : Slot g w' cs' fp.toFilBase) (hcs : ∀ c ∈ cs'', g.Cluster c)
    (hspares : Spares g fp.dirSect fp.dirPtr w cs w' cs') :
    Spares g fp'.dirSect fp'.dirPtr w cs w'' cs'' := by
  rw [h.dirSect, h.dirPtr]
  rcases h.change with hext | ⟨rfl, rfl⟩
  · exact hspares.extend hg hslot.elsewhere hext hcs
  · exact hspares.record hslot.fits

end Runs

end FtpServer
