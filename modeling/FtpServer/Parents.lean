import FtpServer.Sessions

/-! Parent directories: what CDUP, and a `..` in an argument, do to the components of
`currentdir`, whatever its slashes. -/

namespace FtpServer
open Interaction CString Components Transition

def EndsInSlash (path : Bytes) : Prop := 1 < path.length ∧ path.getLast? = some slash

instance (path : Bytes) : Decidable (EndsInSlash path) := inferInstanceAs (Decidable (_ ∧ _))

theorem endsInSlash_iff (path : Bytes) :
    EndsInSlash path ↔ ∃ a, a ≠ [] ∧ path = a ++ [slash] := by
  unfold EndsInSlash
  rw [List.getLast?_eq_some_iff]
  constructor
  · rintro ⟨hlen, a, rfl⟩
    refine ⟨a, ?_, rfl⟩
    rintro rfl
    simp at hlen
  · rintro ⟨a, ha, rfl⟩
    have hpos : 0 < a.length := List.length_pos_iff.mpr ha
    refine ⟨?_, a, rfl⟩
    rw [List.length_append, List.length_singleton]
    omega

theorem comps_cut_slash (a : Bytes) : comps slash (a ++ [slash]) = comps slash a := by
  rw [comps_append_sep, comps_nil, List.append_nil]

theorem comps_doStepDown_cases (path : Bytes) :
    comps slash (doStepDown path) =
      if EndsInSlash path then comps slash path else (comps slash path).dropLast := by
  split
  · rename_i hends
    obtain ⟨a, ha, rfl⟩ := (endsInSlash_iff path).mp hends
    rw [doStepDown_cut ha (List.not_mem_nil), comps_cut_slash]
  · rename_i hends
    apply comps_doStepDown
    intro a hpath
    by_contra ha
    exact hends ((endsInSlash_iff path).mpr ⟨a, ha, hpath⟩)

theorem eq_dropLast_iff {α : Type} (l : List α) : l = l.dropLast ↔ l = [] := by
  constructor
  · intro h
    have hlen := congrArg List.length h
    rw [List.length_dropLast] at hlen
    exact List.length_eq_zero_iff.mp (by omega)
  · rintro rfl
    rfl

/-- `do_step_down` removes exactly the last component unless a slash ends the path and
there is one to remove. -/
theorem doStepDown_removes_last_iff (path : Bytes) :
    comps slash (doStepDown path) = (comps slash path).dropLast ↔
      (EndsInSlash path → comps slash path = []) := by
  rw [comps_doStepDown_cases]
  split
  · rename_i hends
    simpa [hends] using eq_dropLast_iff (comps slash path)
  · rename_i hends
    simp [hends]

def cwdSlashed : Request where
  received := bytes "CWD /a/\r\n"
  stale := []
  calls := [⟨.malloc, true⟩, ⟨.reply .sockfd 1 (Reply.changedTo (bytes "/a/")).text, 32⟩]
  fits := by decide

theorem reachable_slashed : Reachable { justAccepted with currentdir := bytes "/a/" } :=
  ⟨justAccepted, [cwdSlashed], accepted_justAccepted, _,
    ⟨0, by decide, serves_of_replay 0 rfl⟩, rfl⟩

theorem step_down_keeps_component :
    ¬∀ conn, Reachable conn →
      comps slash (doStepDown conn.currentdir) = (comps slash conn.currentdir).dropLast := by
  intro h
  have hdrop := h _ reachable_slashed
  exact absurd hdrop (by decide)

def SeesDots (dir arg : Bytes) : Prop :=
  arg[0]? = some dot ∧ arg[1]? = some dot ∧ dir ≠ ftpSrvRoot

theorem fullPath_sees {dir arg : Bytes} (h : SeesDots dir arg) :
    fullPath dir arg = (doStepDown dir, doStepDown dir) :=
  fullPath_dots h.2.2 ⟨h.1, h.2.1⟩

theorem fullPath_fst_sees {dir arg : Bytes} (h : ¬SeesDots dir arg) :
    (fullPath dir arg).1 = dir := by
  by_cases habs : arg[0]? = some slash
  · rw [fullPath_absolute habs]
  by_cases hroot : dir = ftpSrvRoot
  · rw [fullPath_root hroot]
  · have hdots : ¬(arg[0]? = some dot ∧ arg[1]? = some dot) := fun hd => h ⟨hd.1, hd.2, hroot⟩
    rw [fullPath_below habs hroot hdots]

/-- The requests that move a session although they only build a path: one with a `..`
in front, from a directory whose last component `do_step_down` removes. -/
def Strays (dir : Bytes) (cmd : Cmd) (parameter : Option Bytes) : Prop :=
  takesPath cmd ∧ (∃ arg, parameter = some arg ∧ SeesDots dir arg) ∧
    ¬EndsInSlash dir ∧ comps slash dir ≠ []

theorem comps_doStepDown_same (dir : Bytes) :
    comps slash (doStepDown dir) = comps slash dir ↔ EndsInSlash dir ∨ comps slash dir = [] := by
  rw [comps_doStepDown_cases]
  split
  · rename_i hends
    simp [hends]
  · rename_i hends
    rw [eq_comm, eq_dropLast_iff]
    simp [hends]

theorem comps_fullPath_fst {dir arg : Bytes} {cmd : Cmd} (htakes : takesPath cmd) :
    comps slash (fullPath dir arg).1 = comps slash dir ↔ ¬Strays dir cmd (some arg) := by
  by_cases hsees : SeesDots dir arg
  · rw [fullPath_sees hsees, comps_doStepDown_same]
    simp [Strays, htakes, hsees]
    tauto
  · rw [fullPath_fst_sees hsees]
    simp [Strays, hsees]

theorem comps_trimmed (dir : Bytes) (parameter : Option Bytes) :
    comps slash (nextDir dir .list parameter) = comps slash dir := by
  rw [nextDir]
  split
  · rename_i hends
    obtain ⟨a, -, rfl⟩ := (endsInSlash_iff dir).mp hends
    rw [List.dropLast_concat, comps_cut_slash]
  · rfl

theorem comps_nextDir_iff {dir : Bytes} {cmd : Cmd} {parameter : Option Bytes}
    (hcwd : cmd ≠ .cwd) (hcdup : cmd ≠ .cdup) :
    comps slash (nextDir dir cmd parameter) = comps slash dir ↔ ¬Strays dir cmd parameter := by
  cases cmd with
  | cwd => exact absurd rfl hcwd
  | cdup => exact absurd rfl hcdup
  | list => simpa [Strays, takesPath] using comps_trimmed dir parameter
  | retr | stor | size | mkd | dele | rmd =>
    cases parameter with
    | none => simp [nextDir, Strays]
    | some arg => exact comps_fullPath_fst trivial
  | _ => simp [nextDir, Strays, takesPath]

/-- A request other than CWD and CDUP keeps the components of `currentdir` unless it
reaches the switch and strays. -/
theorem request_stays_iff {conn conn' : Conn} {req : Request} {ret : Int}
    (hserves : Serves conn req conn' ret) (hcwd : req.cmd ≠ .cwd) (hcdup : req.cmd ≠ .cdup) :
    comps slash conn'.currentdir = comps slash conn.currentdir ↔
      ¬(⟨.malloc, true⟩ ∈ req.calls ∧ Strays conn.currentdir req.cmd req.parameter) := by
  rcases serves_cases hserves with ⟨hcalls, rfl, -⟩ | ⟨fuel, t, hcalls, hrun⟩
  · simp [hcalls]
  · have heffect := dispatch_effect fuel conn _ req.cmd req.parameter t _ hrun conn' ret rfl
    rw [heffect.currentdir, comps_nextDir_iff hcwd hcdup, hcalls]
    simp

def cwdNested : Request where
  received := bytes "CWD /a/b\r\n"
  stale := []
  calls := [⟨.malloc, true⟩, ⟨.reply .sockfd 1 (Reply.changedTo (bytes "/a/b")).text, 33⟩]
  fits := by decide

def sizeDots : Request where
  received := bytes "SIZE ..\r\n"
  stale := []
  calls := [⟨.malloc, true⟩, ⟨.fOpen (bytes "/a") faRead, FResult.noFile⟩,
    ⟨.reply .sockfd 1 (Reply.notRegular (bytes "/a")).text, 29⟩]
  fits := by decide

theorem reachable_nested : Reachable { justAccepted with currentdir := bytes "/a/b" } :=
  ⟨justAccepted, [cwdNested], accepted_justAccepted, _,
    ⟨0, by decide, serves_of_replay 0 rfl⟩, rfl⟩

theorem size_dots_served :
    Serves { justAccepted with currentdir := bytes "/a/b" } sizeDots
      { justAccepted with currentdir := bytes "/a" } 0 :=
  serves_of_replay 0 rfl

theorem request_stays_iff_size :
    comps slash (bytes "/a") = comps slash (bytes "/a/b") ↔
      ¬(⟨.malloc, true⟩ ∈ sizeDots.calls ∧
        Strays (bytes "/a/b") sizeDots.cmd sizeDots.parameter) :=
  request_stays_iff size_dots_served (by decide) (by decide)

theorem size_moves_session :
    ¬∀ conn req conn' ret, Reachable conn → Serves conn req conn' ret → req.cmd ≠ .cwd →
      req.cmd ≠ .cdup → comps slash conn'.currentdir = comps slash conn.currentdir := by
  intro h
  have hsame := h _ _ _ _ reachable_nested size_dots_served (by decide) (by decide)
  exact absurd hsame (by decide)

def parentPath (k : Nat) (cs : List Bytes) : Bytes :=
  join slash (List.replicate k [dot, dot] ++ cs)

theorem proper_parents {cs : List Bytes} (hcs : Proper slash cs) (k : Nat) :
    Proper slash (List.replicate k [dot, dot] ++ cs) := by
  refine Proper.append ?_ hcs
  intro c hc
  rw [List.eq_of_mem_replicate hc]
  decide

theorem comps_parentPath {cs : List Bytes} (hcs : Proper slash cs) (k : Nat) :
    comps slash (parentPath k cs) = List.replicate k [dot, dot] ++ cs :=
  comps_join (proper_parents hcs k)

theorem parentPath_dots {k : Nat} (hk : 1 ≤ k) (cs : List Bytes) :
    ∃ rest, parentPath k cs = dot :: dot :: rest := by
  obtain ⟨k, rfl⟩ := Nat.exists_eq_add_of_le' hk
  unfold parentPath
  rw [List.replicate_succ, List.cons_append]
  by_cases hrest : List.replicate k [dot, dot] ++ cs = []
  · rw [hrest, join_singleton]
    exact ⟨[], rfl⟩
  · have hsplit := @join_append _ slash [[dot, dot]] _ (by simp) hrest
    rw [List.singleton_append, join_singleton] at hsplit
    exact ⟨_, hsplit⟩

theorem seesDots_parentPath {dir : Bytes} {k : Nat} (hk : 1 ≤ k) (cs : List Bytes)
    (hroot : dir ≠ ftpSrvRoot) : SeesDots dir (parentPath k cs) := by
  obtain ⟨rest, hpath⟩ := parentPath_dots hk cs
  rw [hpath]
  exact ⟨rfl, rfl, hroot⟩

def keptComps (dir : Bytes) : Nat :=
  if EndsInSlash dir then (comps slash dir).length else (comps slash dir).length - 1

theorem comps_doStepDown_take (dir : Bytes) :
    comps slash (doStepDown dir) = (comps slash dir).take (keptComps dir) := by
  rw [comps_doStepDown_cases, keptComps]
  split
  · rw [List.take_length]
  · rw [List.dropLast_eq_take]

/-- The path is the one the parent references name. -/
def ResolvesParents (dir : Bytes) (k : Nat) (cs : List Bytes) : Prop :=
  comps slash (fullPath dir (parentPath k cs)).2 =
    (comps slash dir).take ((comps slash dir).length - k) ++ cs

def CwdDotsIsCdup (conn : Conn) : Prop :=
  ∀ cwd cdup conn₁ conn₂, cwd.cmd = .cwd → cwd.parameter = some [dot, dot] →
    cdup.cmd = .cdup → sessionStep conn cwd conn₁ → sessionStep conn cdup conn₂ →
    comps slash conn₁.currentdir = comps slash conn₂.currentdir

theorem resolvesParents_iff {dir : Bytes} {k : Nat} {cs : List Bytes} (hk : 1 ≤ k)
    (hcs : Proper slash cs) :
    ResolvesParents dir k cs ↔
      dir ≠ ftpSrvRoot ∧
        cs = ((comps slash dir).take (keptComps dir)).drop ((comps slash dir).length - k) := by
  unfold ResolvesParents
  by_cases hroot : dir = ftpSrvRoot
  · have hempty : comps slash ftpSrvRoot = [] := by decide
    have hne : List.replicate k [dot, dot] ≠ [] := by
      rw [ne_eq, List.replicate_eq_nil_iff]
      omega
    rw [fullPath_root hroot, comps_parentPath hcs, hroot, hempty]
    simp [hne]
  · rw [fullPath_sees (seesDots_parentPath hk cs hroot), comps_doStepDown_take]
    have hkept : (comps slash dir).length - k ≤ keptComps dir := by
      unfold keptComps
      split <;> omega
    have hsplit := List.take_append_drop ((comps slash dir).length - k)
      ((comps slash dir).take (keptComps dir))
    rw [List.take_take, min_eq_left hkept] at hsplit
    conv_lhs => lhs; rw [← hsplit]
    rw [List.append_cancel_left_eq, eq_comm]
    simp [hroot]

theorem cwd_dots_cdup {conn : Conn} (hroot : conn.currentdir ≠ ftpSrvRoot) :
    CwdDotsIsCdup conn := by
  intro cwd cdup conn₁ conn₂ hcwd hdots hcdup hstep₁ hstep₂
  have hdir₁ := (sessionStep_effect hstep₁).currentdir
  have hdir₂ := (sessionStep_effect hstep₂).currentdir
  have hsees : SeesDots conn.currentdir [dot, dot] := ⟨rfl, rfl, hroot⟩
  rw [hcwd, hdots, nextDir, fullPath_sees hsees] at hdir₁
  rw [hcdup, nextDir] at hdir₂
  rw [hdir₁, hdir₂]

/-- Parent references resolve exactly outside the root, where what follows them is what
the one step down keeps beyond the components they leave. -/
theorem parents_resolve_iff (conn : Conn) {k : Nat} {cs : List Bytes} (hk : 1 ≤ k)
    (hcs : Proper slash cs) :
    (ResolvesParents conn.currentdir k cs ∧ CwdDotsIsCdup conn) ↔
      conn.currentdir ≠ ftpSrvRoot ∧
        cs = ((comps slash conn.currentdir).take (keptComps conn.currentdir)).drop
          ((comps slash conn.currentdir).length - k) := by
  rw [resolvesParents_iff hk hcs]
  refine ⟨fun h => h.1, ?_⟩
  intro h
  exact ⟨h, cwd_dots_cdup h.1⟩

theorem parents_resolve_iff_up :
    (ResolvesParents (bytes "/a/b") 1 [] ∧
      CwdDotsIsCdup { justAccepted with currentdir := bytes "/a/b" }) ↔
      bytes "/a/b" ≠ ftpSrvRoot ∧
        [] = ((comps slash (bytes "/a/b")).take (keptComps (bytes "/a/b"))).drop
          ((comps slash (bytes "/a/b")).length - 1) :=
  parents_resolve_iff { justAccepted with currentdir := bytes "/a/b" } (le_refl 1)
    (by simp [Proper])

/-- The parent of the root is a file called `..`. -/
theorem root_parent_unresolved :
    ¬∀ conn k cs, Reachable conn → 1 ≤ k → Proper slash cs → (∀ c ∈ cs, ¬([dot, dot] <+: c)) →
      ResolvesParents conn.currentdir k cs ∧ CwdDotsIsCdup conn := by
  intro h
  have hreach : Reachable justAccepted := ⟨justAccepted, [], accepted_justAccepted, rfl⟩
  have hresolves := (h justAccepted 1 [] hreach (le_refl 1) (by simp [Proper]) (by simp)).1
  exact ((resolvesParents_iff (le_refl 1) (by simp [Proper])).mp hresolves).1 rfl

end FtpServer
