import FtpServer.Sessions

/-! Navigation. A session walks a stack of directories; its `currentdir` is one of
several texts for that stack. -/

namespace FtpServer
open Interaction CString Components Transition

inductive Move where
  | stay
  | up
  | replace (cs : List Bytes)
  | descend (cs : List Bytes)

def Move.apply : Move → List Bytes → List Bytes
  | stay, stack => stack
  | up, stack => stack.dropLast
  | replace cs, _ => cs
  | descend cs, stack => stack ++ cs

def moveTo (path : Bytes) : Move :=
  if path[0]? = some slash then .replace (comps slash path) else .descend (comps slash path)

def moveOf : Cmd → Option Bytes → Move
  | .cwd, some path => moveTo path
  | .cdup, _ => .up
  | _, _ => .stay

def navigate (stack : List Bytes) (req : Request) : List Bytes :=
  (moveOf req.cmd req.parameter).apply stack

def Request.Normalized (req : Request) : Prop :=
  takesPath req.cmd → ∀ path, req.parameter = some path → NormalizedPath path

/-- The stack a `currentdir` stands for. -/
def Tracks (conn : Conn) (stack : List Bytes) : Prop :=
  WellFormed conn.currentdir ∧ comps slash conn.currentdir = stack

theorem fullPath_comps {dir path : Bytes} {stack : List Bytes} (hd : WellFormed dir)
    (hstack : comps slash dir = stack) (hp : NormalizedPath path) :
    comps slash (fullPath dir path).2 = (moveTo path).apply stack := by
  have hfull := (fullPath_normalized hd hp).2.2
  unfold moveTo
  by_cases habs : path[0]? = some slash
  · simpa [habs, Move.apply] using hfull
  · simpa [habs, Move.apply, hstack] using hfull

theorem nextDir_tracks {conn conn' : Conn} {cmd : Cmd} {parameter : Option Bytes}
    {stack : List Bytes} (htracks : Tracks conn stack)
    (hdir : conn'.currentdir = nextDir conn.currentdir cmd parameter)
    (hnorm : takesPath cmd → ∀ path, parameter = some path → NormalizedPath path) :
    Tracks conn' ((moveOf cmd parameter).apply stack) := by
  obtain ⟨hwell, hcomps⟩ := htracks
  -- the branches that leave `currentdir` alone
  have hkept : conn'.currentdir = conn.currentdir → Tracks conn' stack := by
    intro h
    exact ⟨by rw [h]; exact hwell, by rw [h]; exact hcomps⟩
  -- the file commands build a path and leave `currentdir` to `do_full_path`
  have hfile : takesPath cmd → (∀ path, parameter = some path →
      nextDir conn.currentdir cmd parameter = (fullPath conn.currentdir path).1) →
      (parameter = none → nextDir conn.currentdir cmd parameter = conn.currentdir) →
      Tracks conn' stack := by
    intro htakes hsome hnone
    apply hkept
    cases parameter with
    | none => rw [hdir, hnone rfl]
    | some path =>
      rw [hdir, hsome path rfl]
      exact (fullPath_normalized hwell (hnorm htakes path rfl)).1
  cases cmd with
  | cdup =>
    rw [nextDir] at hdir
    refine ⟨by rw [hdir]; exact hwell.doStepDown, ?_⟩
    rw [hdir, comps_dropLast hwell, hcomps]
    rfl
  | cwd =>
    cases parameter with
    | none => exact hkept hdir
    | some path =>
      have hpath := hnorm trivial path rfl
      rw [nextDir] at hdir
      refine ⟨by rw [hdir]; exact (fullPath_normalized hwell hpath).2.1, ?_⟩
      rw [hdir, fullPath_comps hwell hcomps hpath]
      rfl
  | list =>
    -- the slash that `do_full_list` would cut is not there
    rw [nextDir, if_neg hwell.trimmed] at hdir
    exact hkept hdir
  | retr | stor | size | mkd | dele | rmd =>
    apply hfile trivial
    · intro path h
      rw [h]
      rfl
    · intro h
      rw [h]
      rfl
  | _ => exact hkept hdir

theorem run_tracks {conn conn' : Conn} {reqs : List Request} {stack : List Bytes}
    (hrun : Follows (Where (fun _ req => req.Normalized) sessionStep) conn reqs conn')
    (htracks : Tracks conn stack) : Tracks conn' (reqs.foldl navigate stack) := by
  apply Follows.simulation Tracks navigate _ hrun htracks
  intro conn req conn' stack htracks hstep
  exact nextDir_tracks htracks (sessionStep_effect hstep.2).currentdir hstep.1

theorem tracks_accepted {conn : Conn} (h : Accepted conn) : Tracks conn [] := by
  have hroot : conn.currentdir = [slash] := by rw [h.1, ftpSrvRoot, bytes_root]
  exact ⟨.inl hroot, by simp [hroot]⟩

/-- A run of requests with normalized arguments moves `currentdir` as the stack moves,
and the next such request hands FatFs the path its argument names there. A request
without its argument, or with a path too long for its buffer, is no step of a run. -/
theorem navigation_refines_stack {conn₀ conn : Conn} {reqs : List Request}
    (hstart : Accepted conn₀)
    (hrun : Follows (Where (fun _ req => req.Normalized) sessionStep) conn₀ reqs conn) :
    comps slash conn.currentdir = reqs.foldl navigate [] ∧
    ∀ req conn' ret, req.Normalized → Serves conn req conn' ret →
      ∀ path ∈ handedPaths req.calls, ∃ arg, req.parameter = some arg ∧
        comps slash path = (moveTo arg).apply (reqs.foldl navigate []) := by
  obtain ⟨hwell, hcomps⟩ := run_tracks hrun (tracks_accepted hstart)
  refine ⟨hcomps, ?_⟩
  intro req conn' ret hnorm hserves path hpath
  cases serves_effect hserves with
  | inl hfailed => simp [hfailed.2.2] at hpath
  | inr heffect =>
    obtain ⟨htakes, arg, harg, hfull⟩ := heffect.paths path hpath
    refine ⟨arg, harg, ?_⟩
    rw [hfull, fullPath_comps hwell hcomps (hnorm htakes arg harg)]

def cwdFoo : Request where
  received := bytes "CWD foo\r\n"
  stale := []
  calls := [⟨.malloc, true⟩, ⟨.reply .sockfd 1 (Reply.changedTo (bytes "foo")).text, 32⟩]
  fits := by decide

def cwdBar : Request where
  received := bytes "CWD bar\r\n"
  stale := []
  calls := [⟨.malloc, true⟩, ⟨.reply .sockfd 1 (Reply.changedTo (bytes "foo/bar")).text, 36⟩]
  fits := by decide

theorem navigation_refines_stack_foo_bar :
    comps slash (bytes "foo/bar") = [cwdFoo, cwdBar].foldl navigate [] := by
  have hnorm : ∀ s : Bytes, s ≠ [] → slash ∉ s → ¬([dot, dot] <+: s) → NormalizedPath s := by
    intro s hne hslash hdots
    exact .inr ⟨[s], by simp, by simp [Proper, hne, hslash], by simpa using hdots, .inl (by simp)⟩
  have hfoo : cwdFoo.Normalized := by
    intro _ path hpath
    have harg : bytes "foo" = path := Option.some.inj hpath
    rw [← harg]
    exact hnorm _ (by decide) (by decide) (by decide)
  have hbar : cwdBar.Normalized := by
    intro _ path hpath
    have harg : bytes "bar" = path := Option.some.inj hpath
    rw [← harg]
    exact hnorm _ (by decide) (by decide) (by decide)
  have hrun : Follows (Where (fun _ req => req.Normalized) sessionStep) justAccepted
      [cwdFoo, cwdBar] { justAccepted with currentdir := bytes "foo/bar" } :=
    ⟨_, ⟨hfoo, 0, by decide, serves_of_replay 0 rfl⟩, _,
      ⟨hbar, 0, by decide, serves_of_replay 0 rfl⟩, rfl⟩
  exact (navigation_refines_stack accepted_justAccepted hrun).1

end FtpServer
