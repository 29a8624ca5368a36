import FtpServer.Sessions

/-! The replies of a request on its control connection. -/

namespace FtpServer
open Interaction CString

@[simp] def eventCode (sock : Int) (e : CallEvent) : Option Nat :=
  match e.call with
  | .reply _ s text => if s = sock then replyCode text else none
  | _ => none

def replyCodes (sock : Int) (t : List CallEvent) : List Nat := t.filterMap (eventCode sock)

@[simp] def openResult (e : CallEvent) : Option FResult :=
  match e with
  | ⟨.fOpen _ _, rc⟩ => some rc
  | _ => none

def openings (t : List CallEvent) : List FResult := t.filterMap openResult

/-- One completion reply (2xx to 5xx), after at most one preliminary reply (1xx). -/
def CompletedOnce : List Nat → Prop
  | [c] => 200 ≤ c ∧ c < 600
  | [p, c] => 100 ≤ p ∧ p < 200 ∧ 200 ≤ c ∧ c < 600
  | _ => False

/-- The outcomes after which a request is answered twice or not at all. -/
def Spoils (conn : Conn) (cmd : Cmd) : (c : Call) → c.Answer → Prop
  | .fOpendir _, rc => rc ≠ .ok ∧ conn.pasvSockfd = conn.sockfd
  | .select _ _, ready => cmd = .stor ∧ ready.ret ≤ 0
  | .bind _ _, bound => cmd = .pasv ∧ bound = -1
  | .accept _, data => data.sock < 0
  | .strtokSaved, saved => ∀ s, saved = some s → portcom 6 s = none
  | _, _ => False

def Unspoilt (conn : Conn) (cmd : Cmd) (t : List CallEvent) : Prop :=
  ∀ e ∈ t, ¬Spoils conn cmd e.call e.answer

def StorEnd.codes : StorEnd → List Nat
  | .closed _ _ _ => [226]
  | _ => []

theorem StorEnd.answers (last : StorEnd) :
    (last.ret = -1 ∨ CompletedOnce (150 :: last.codes)) ↔ ∀ ready, ¬last = .timeout ready := by
  cases last <;> simp [StorEnd.ret, StorEnd.codes, CompletedOnce]

section Traces

@[simp] theorem replyCodes_nil (sock : Int) : replyCodes sock [] = [] := rfl

@[simp] theorem replyCodes_cons (sock : Int) (e : CallEvent) (t : List CallEvent) :
    replyCodes sock (e :: t) = (eventCode sock e).toList ++ replyCodes sock t := by
  unfold replyCodes
  cases h : eventCode sock e with
  | none => exact List.filterMap_cons_none h
  | some c => exact List.filterMap_cons_some h

@[simp] theorem replyCodes_append (sock : Int) (t t' : List CallEvent) :
    replyCodes sock (t ++ t') = replyCodes sock t ++ replyCodes sock t' :=
  List.filterMap_append

@[simp] theorem openings_nil : openings [] = [] := rfl

@[simp] theorem openings_cons (e : CallEvent) (t : List CallEvent) :
    openings (e :: t) = (openResult e).toList ++ openings t := by
  unfold openings
  cases h : openResult e with
  | none => exact List.filterMap_cons_none h
  | some rc => exact List.filterMap_cons_some h

@[simp] theorem openings_append (t t' : List CallEvent) :
    openings (t ++ t') = openings t ++ openings t' := List.filterMap_append

variable (conn : Conn) (cmd : Cmd)

@[simp] theorem unspoilt_nil : Unspoilt conn cmd [] := by
  simp [Unspoilt]

@[simp] theorem unspoilt_cons (e : CallEvent) (t : List CallEvent) :
    Unspoilt conn cmd (e :: t) ↔ ¬Spoils conn cmd e.call e.answer ∧ Unspoilt conn cmd t :=
  List.forall_mem_cons

@[simp] theorem unspoilt_append (t t' : List CallEvent) :
    Unspoilt conn cmd (t ++ t') ↔ Unspoilt conn cmd t ∧ Unspoilt conn cmd t' :=
  List.forall_mem_append

@[simp] theorem replyCodes_retrTrace (sock s : Int) (blocks : List ReadBlock) (last : FResult) :
    replyCodes sock (retrTrace s blocks last) = [] := by
  rw [replyCodes, List.filterMap_eq_nil_iff, forall_mem_retrTrace]
  simp

@[simp] theorem replyCodes_storTrace {sock : Int} (hsock : conn.sockfd = sock)
    (blocks : List WriteBlock) (last : StorEnd) :
    replyCodes sock (storTrace conn blocks last) = last.codes := by
  induction blocks with
  | nil => cases last <;> simp [storTrace, StorEnd.codes, hsock]
  | cons block blocks ih => simp [storTrace, ih]

@[simp] theorem unspoilt_listTrace (line : FilInfo → Bytes) (via : Operand) (s : Int)
    (entries : List (FilInfo × Int)) (last : FResult × FilInfo) :
    Unspoilt conn cmd (listTrace line via s entries last) := by
  rw [Unspoilt, forall_mem_listTrace]
  simp [Spoils]

@[simp] theorem unspoilt_retrTrace (s : Int) (blocks : List ReadBlock) (last : FResult) :
    Unspoilt conn cmd (retrTrace s blocks last) := by
  rw [Unspoilt, forall_mem_retrTrace]
  simp [Spoils]

@[simp] theorem openings_listTrace (line : FilInfo → Bytes) (via : Operand) (s : Int)
    (entries : List (FilInfo × Int)) (last : FResult × FilInfo) :
    openings (listTrace line via s entries last) = [] := by
  rw [openings, List.filterMap_eq_nil_iff, forall_mem_listTrace]
  simp

@[simp] theorem openings_retrTrace (s : Int) (blocks : List ReadBlock) (last : FResult) :
    openings (retrTrace s blocks last) = [] := by
  rw [openings, List.filterMap_eq_nil_iff, forall_mem_retrTrace]
  simp

@[simp] theorem openings_storTrace (blocks : List WriteBlock) (last : StorEnd) :
    openings (storTrace conn blocks last) = [] := by
  rw [openings, List.filterMap_eq_nil_iff, forall_mem_storTrace]
  cases last <;> simp [storTrace]

end Traces

section Commands
variable (fuel : Nat) (conn : Conn) (buf : Bytes) (parameter : Option Bytes)

end Commands

end FtpServer
