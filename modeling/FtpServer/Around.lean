import FtpServer.Closing
import FtpServer.Seeking

/-! What a call on an open file does whatever the device answers. The window is moved to the FAT
and to the entry of the file, and by `sync_fs` to the FSINFO sector, but to no sector of a file;
and `FR_DISK_ERR` is returned only when a transfer of the call has failed. -/

namespace FtpServer
open Interaction CString

section Aborting
variable {g : Geometry} {P : Nat → Prop} {c : Prop} {α : Type} {post : α → Prop} {fp : Fil}

theorem aborts_diskErr (h : ¬c) : Aborts g P c (abort .diskErr fp : FileOp α) post :=
  maintainsElse_throw fun hc => absurd hc h

theorem aborts_intErr : Aborts g P c (abort .intErr fp : FileOp α) post :=
  maintainsElse_throw fun _ => nofun

end Aborting

section Read
variable {g : Geometry} {P : Nat → Prop}

/-- The first cluster is not the number that stands for a failed transfer. -/
def FilBase.Starts (base : FilBase) : Prop := base.sclust ≠ diskError

theorem maintains_validate (fp : Fil) :
    Maintains (Around g P) failedTransfer (validate fp) (· ≠ .diskErr) :=
  maintains_get fun _ _ => maintains_ite (fun _ => maintains_pure (by decide))
    fun _ => maintains_pure (by decide)

theorem aborts_flushBuf {c : Prop} (fp : Fil) {post : Fil → Prop}
    (hpost : ∀ dirty, c → post { fp with dirty := dirty }) :
    Aborts g P c (flushBuf fp) post := by
  refine maintainsElse_ite (fun _ => ?_) fun _ => aborts_pure (hpost fp.dirty)
  exact (aborts_lift (maintains_diskWrite1 _ _)).bind fun res => maintainsElse_ite
    (fun hno => aborts_diskErr fun hok => hno hok.2) fun _ => aborts_pure fun h => hpost false h.1

theorem aborts_loadBuf (fp : Fil) (sect : Nat) :
    Aborts g P fp.Starts (loadBuf fp sect) (·.Starts) :=
  (aborts_lift (maintains_diskRead1 _)).bind fun _ => maintainsElse_ite
    (fun hno => aborts_diskErr fun hok => hno hok.2) fun _ => aborts_pure And.left

theorem aborts_fillBuf (fp : Fil) (sect : Nat) :
    Aborts g P fp.Starts (fillBuf fp sect) (·.Starts) := by
  refine maintainsElse_ite (fun _ => ?_) fun _ => aborts_pure id
  have hflush : Aborts g P fp.Starts (flushBuf fp) (·.Starts) := aborts_flushBuf fp fun _ => id
  refine hflush.bind fun fp₁ => ?_
  exact ((aborts_loadBuf fp₁ sect).weaken And.right).bind fun fp₂ => aborts_pure And.right

theorem aborts_readCluster (hg : g.Sound) (hP : Allows g P) (fp : Fil) (csect : Nat) :
    Aborts g P fp.Starts (readCluster fp csect) (·.Starts) := by
  have hend : ∀ clst, Aborts g P (fp.Starts ∧ clst ≠ diskError) (if clst < 2 then abort .intErr fp
      else if clst = diskError then abort .diskErr fp
      else pure { fp with clust := clst }) (·.Starts) := fun clst =>
    maintainsElse_ite (fun _ => aborts_intErr) fun _ => maintainsElse_ite
      (fun herr => aborts_diskErr fun hno => hno.2 herr) fun _ => aborts_pure And.left
  refine maintainsElse_ite (fun _ => maintainsElse_ite (fun _ => ?_) fun _ => ?_)
    fun _ => aborts_pure id
  · have hown : Aborts g P fp.Starts (pure fp.sclust : FileOp Nat) (· ≠ diskError) :=
      aborts_pure id
    exact hown.bind hend
  · exact (aborts_lift (maintains_getFat hg hP _)).bind hend

theorem aborts_readPass (hg : g.Sound) (hP : Allows g P) (fp : Fil) (btr : Nat) :
    Aborts g P fp.Starts (readPass fp btr) (fun r => r.1.Starts) := by
  refine maintainsElse_ite (fun _ => ?_) fun _ => aborts_pure id
  refine maintainsElse_get fun fs _ => (aborts_readCluster hg hP _ _).bind fun fp₁ => ?_
  refine maintainsElse_ite (fun _ => aborts_intErr) fun _ => maintainsElse_ite (fun _ => ?_)
    fun _ => ?_
  · exact (aborts_lift (maintains_read _ _)).bind fun r => maintainsElse_ite
      (fun hno => aborts_diskErr fun hok => hno hok.2) fun _ => aborts_pure fun h => h.1.2
  · exact ((aborts_fillBuf fp₁ _).weaken And.right).bind fun fp₂ => aborts_pure And.right

theorem maintains_readLoop (hg : g.Sound) (hP : Allows g P) (fuel : Nat) (fp : Fil) (btr : Nat)
    (done : Bytes) : Maintains (Around g P) failedTransfer (readLoop fuel fp btr done)
      (fun r => fp.Starts → r.1 ≠ .diskErr) := by
  induction fuel generalizing fp btr done with
  | zero => exact maintains_stuck
  | succ fuel ih =>
    refine maintains_ite (fun _ => maintains_pure fun _ => nofun) fun _ => ?_
    refine Maintains.bind (aborts_readPass hg hP fp btr) fun r => ?_
    cases r with
    | error e => exact maintains_pure id
    | ok r => exact (ih _ _ _).mono fun _ hr hpass hstarts => hr (hpass hstarts)

theorem maintains_fRead (hg : g.Sound) (hP : Allows g P) (fp : Fil) (btr : Nat) :
    Maintains (Around g P) failedTransfer (fp.fRead btr)
      (fun r => fp.err = .ok → fp.Starts → r.1 ≠ .diskErr) := by
  refine (maintains_validate _).bind fun res => maintains_ite
    (fun _ => maintains_pure fun hres _ _ => hres) fun _ => ?_
  refine maintains_ite (fun herr => maintains_pure fun _ hok => absurd hok herr) fun _ => ?_
  refine maintains_ite (fun _ => maintains_pure fun _ _ _ => nofun) fun _ => ?_
  exact (maintains_readLoop hg hP _ _ _ _).mono fun _ hr _ _ => hr

end Read

section Write
variable {g : Geometry} {P : Nat → Prop}

theorem aborts_writeCluster (hg : g.Sound) (hP : Allows g P) (fp : Fil) (csect : Nat) :
    Aborts g P fp.Starts (writeCluster fp csect) (fun r => ∀ fp₁ ∈ r, fp₁.Starts) := by
  have hend : ∀ clst, Aborts g P (fp.Starts ∧ clst ≠ diskError) (if clst = 0 then pure none
      else if clst = 1 then abort .intErr fp
      else if clst = diskError then abort .diskErr fp
      else pure (some { fp with
        clust := clst, sclust := if fp.sclust = 0 then clst else fp.sclust }))
      (fun r => ∀ fp₁ ∈ r, fp₁.Starts) := by
    refine fun clst => maintainsElse_ite (fun _ => aborts_pure fun _ => by simp) fun _ =>
      maintainsElse_ite (fun _ => aborts_intErr) fun _ => maintainsElse_ite
        (fun herr => aborts_diskErr fun hno => hno.2 herr) fun _ => aborts_pure ?_
    rintro ⟨hstarts, hclst⟩ _ ⟨⟩
    unfold FilBase.Starts
    dsimp only
    split
    · exact hclst
    · exact hstarts
  refine maintainsElse_ite (fun _ => maintainsElse_ite (fun _ => maintainsElse_ite
    (fun _ => ?_) fun _ => ?_) fun _ => ?_) fun _ => aborts_pure fun h => by simpa using h
  · exact (aborts_lift (maintains_createChain hg hP _)).bind hend
  · have hown : Aborts g P fp.Starts (pure fp.sclust : FileOp Nat) (· ≠ diskError) :=
      aborts_pure id
    exact hown.bind hend
  · exact (aborts_lift (maintains_createChain hg hP _)).bind hend

theorem aborts_writePass (hg : g.Sound) (hP : Allows g P) (fp : Fil) (data : Bytes) :
    Aborts g P fp.Starts (writePass fp data) (fun r => ∀ p ∈ r, p.1.Starts) := by
  have hput : ∀ (fp : Fil) (r : Fil × Nat), r.1.sclust = fp.sclust → fp.Starts →
      ∀ p ∈ some r, p.1.Starts := by
    rintro fp r hsame hstarts _ ⟨⟩
    exact fun herr => hstarts (hsame.symm.trans herr)
  refine maintainsElse_ite (fun _ => ?_) fun _ => aborts_pure (hput fp _ rfl)
  refine maintainsElse_get fun fs _ => (aborts_writeCluster hg hP _ _).bind fun r => ?_
  cases r with
  | none => exact aborts_pure fun _ => by simp
  | some fp₁ =>
    have hflush : Aborts g P (fp.Starts ∧ ∀ fp₂ ∈ some fp₁, fp₂.Starts) (flushBuf fp₁)
        (·.Starts) := aborts_flushBuf fp₁ fun _ h => h.2 fp₁ rfl
    refine hflush.bind fun fp₂ => maintainsElse_ite (fun _ => aborts_intErr) fun _ =>
      maintainsElse_ite (fun _ => ?_) fun _ => ?_
    · refine (aborts_lift (maintains_write _ _ _)).bind fun res => maintainsElse_ite
        (fun hno => aborts_diskErr fun hok => hno hok.2)
          fun _ => aborts_pure fun h => hput fp₂ _ ?_ h.1.2
      dsimp only
      split_ifs <;> rfl
    · refine maintainsElse_ite (fun _ => ?_) fun _ => ?_
      · refine ((aborts_loadBuf fp₂ _).weaken And.right).bind fun fp₃ => ?_
        exact aborts_pure fun h => hput fp₃ _ rfl h.2
      · have hkept : Aborts g P ((fp.Starts ∧ ∀ fp₂ ∈ some fp₁, fp₂.Starts) ∧ fp₂.Starts)
            (pure fp₂ : FileOp Fil) (·.Starts) := aborts_pure And.right
        exact hkept.bind fun fp₃ => aborts_pure fun h => hput fp₃ _ rfl h.2

theorem maintains_writeLoop (hg : g.Sound) (hP : Allows g P) (fuel : Nat) (fp : Fil) (data : Bytes)
    (bw : Nat) : Maintains (Around g P) failedTransfer (writeLoop fuel fp data bw)
      (fun r => fp.Starts → r.1 ≠ .diskErr) := by
  induction fuel generalizing fp data bw with
  | zero => exact maintains_stuck
  | succ fuel ih =>
    refine maintains_ite (fun _ => maintains_pure fun _ => nofun) fun _ => ?_
    refine Maintains.bind (aborts_writePass hg hP fp data) fun r => ?_
    rcases r with e | _ | p
    · exact maintains_pure id
    · exact maintains_pure fun _ _ => nofun
    · exact (ih _ _ _).mono fun _ hr hpass hstarts => hr (hpass hstarts p rfl)

theorem maintains_fWrite (hg : g.Sound) (hP : Allows g P) (fp : Fil) (data : Bytes) :
    Maintains (Around g P) failedTransfer (fp.fWrite data)
      (fun r => fp.err = .ok → fp.Starts → r.1 ≠ .diskErr) := by
  refine (maintains_validate _).bind fun res => maintains_ite
    (fun _ => maintains_pure fun hres _ _ => hres) fun _ => ?_
  refine maintains_ite (fun herr => maintains_pure fun _ hok => absurd hok herr) fun _ => ?_
  refine maintains_ite (fun _ => maintains_pure fun _ _ _ => nofun) fun _ => ?_
  exact (maintains_writeLoop hg hP _ _ _ _).mono fun _ hr _ _ => hr

end Write

section Seek
variable {g : Geometry} {P : Nat → Prop}

theorem aborts_seekStart (hg : g.Sound) (hP : Allows g P) (fp : Fil) (ifptr ofs : Nat) :
    Aborts g P fp.Starts (seekStart fp ifptr ofs) (fun r => r.1.Starts) := by
  refine maintainsElse_get fun fs _ => maintainsElse_ite (fun _ => aborts_pure id) fun _ => ?_
  refine maintainsElse_ite (fun _ => ?_) fun _ => aborts_pure id
  exact (aborts_lift (maintains_createChain hg hP _)).bind fun clst => maintainsElse_ite
    (fun _ => aborts_intErr) fun _ => maintainsElse_ite
      (fun herr => aborts_diskErr fun hno => hno.2 herr) fun _ => aborts_pure And.right

theorem aborts_seekLoop (hg : g.Sound) (hP : Allows g P) (fuel : Nat) (fp : Fil)
    (clst ofs : Nat) : Aborts g P fp.Starts (seekLoop fuel fp clst ofs) (fun r => r.1.Starts) := by
  induction fuel generalizing fp clst ofs with
  | zero => exact Maintains.lift maintains_stuck
  | succ fuel ih =>
    refine maintainsElse_get fun fs _ => maintainsElse_ite (fun _ => ?_) fun _ => aborts_pure id
    have hend : ∀ clst, Aborts g P (fp.Starts ∧ clst ≠ diskError) (if fp.write = true ∧ clst = 0
        then pure (fp, clst, fs.csize * 512)
        else if clst = diskError then abort .diskErr fp
        else if clst ≤ 1 ∨ fs.nFatent ≤ clst then abort .intErr fp
        else seekLoop fuel { fp with clust := clst, fptr := fp.fptr + fs.csize * 512 } clst
          (ofs - fs.csize * 512)) (fun r => r.1.Starts) := fun clst =>
      maintainsElse_ite (fun _ => aborts_pure And.left) fun _ => maintainsElse_ite
        (fun herr => aborts_diskErr fun hno => hno.2 herr) fun _ =>
          maintainsElse_ite (fun _ => aborts_intErr) fun _ => (ih _ _ _).weaken And.left
    refine maintainsElse_ite (fun _ => ?_) fun _ => ?_
    · exact (aborts_lift (maintains_createChain hg hP _)).bind hend
    · exact (aborts_lift (maintains_getFat hg hP _)).bind hend

theorem aborts_seek (hg : g.Sound) (hP : Allows g P) (fp : Fil) (ofs : Nat) :
    Aborts g P fp.Starts (seek fp ofs) (·.Starts) := by
  have hseekTo : ∀ (fp : Fil) ifptr,
      Aborts g P fp.Starts (seekTo fp ifptr ofs) (fun r => r.1.Starts) := by
    intro fp ifptr
    refine maintainsElse_ite (fun _ => aborts_pure id) fun _ => ?_
    refine (aborts_seekStart hg hP _ _ _).bind fun r =>
      maintainsElse_ite (fun _ => aborts_pure And.right) fun _ => ?_
    refine ((aborts_seekLoop hg hP _ r.1 _ _).weaken And.right).bind fun r' =>
      maintainsElse_ite (fun _ => aborts_pure And.right) fun _ => maintainsElse_get fun fs _ => ?_
    exact maintainsElse_ite (fun _ => aborts_intErr) fun _ => aborts_pure And.right
  exact (hseekTo { fp with fptr := 0 } _).bind fun r => maintainsElse_ite
    (fun _ => aborts_pure And.right) fun _ => (aborts_fillBuf r.1 _).weaken And.right

theorem maintains_fLseek (hg : g.Sound) (hP : Allows g P) (fp : Fil) (ofs : Nat) :
    Maintains (Around g P) failedTransfer (fp.fLseek ofs)
      (fun r => fp.err = .ok → fp.Starts → r.1 ≠ .diskErr) := by
  refine (maintains_validate _).bind fun res => maintains_ite
    (fun _ => maintains_pure fun hres _ _ => hres) fun _ => ?_
  refine maintains_ite (fun herr => maintains_pure fun _ hok => absurd hok herr) fun _ => ?_
  refine Maintains.bind (aborts_seek hg hP fp _) fun r => ?_
  cases r with
  | error e => exact maintains_pure fun he _ _ => he
  | ok fp₁ => exact maintains_pure fun _ _ _ => nofun

end Seek

section Sync
variable {g : Geometry}

theorem maintains_fSync (hg : g.Sound) (fp : Fil) :
    Maintains (Around g fun _ => True) failedTransfer fp.fSync (fun r => r.1 ≠ .diskErr) := by
  have hP := allows_all g
  have hflush : Aborts g (fun _ => True) True (flushBuf fp) (fun _ => True) :=
    aborts_flushBuf fp fun _ => id
  refine (maintains_validate _).bind fun res => maintains_ite (fun _ => ?_)
    fun _ => maintains_pure id
  refine maintains_ite (fun _ => ?_) fun _ => maintains_pure id
  refine Maintains.bind hflush fun r => ?_
  cases r with
  | error e => exact maintains_pure fun he _ => he trivial
  | ok fp₁ =>
    refine (maintains_moveWindow hP.none trivial).bind fun res => maintains_ite
      (fun _ => ?_) fun hres => maintains_pure fun h => absurd h hres
    refine maintains_get fun fs _ => maintains_storeWin _ ?_
    refine (maintains_syncFs hg hP.low).bind fun res => maintains_pure ?_
    rintro rfl - - -
    exact nofun

theorem maintains_fClose (hg : g.Sound) (fp : Fil) :
    Maintains (Around g fun _ => True) failedTransfer fp.fClose (fun r => r.1 ≠ .diskErr) := by
  refine (maintains_fSync hg fp).bind fun r => maintains_ite (fun _ => ?_)
    fun _ => maintains_pure id
  exact (maintains_validate _).bind fun res => maintains_ite
    (fun _ => maintains_pure fun h _ => h) fun _ => maintains_pure fun h _ => h

end Sync

end FtpServer
