import FtpServer.Sessions
import FtpServer.Library.Printing

/-! The address of a 227 reply, given back as the argument of PORT. -/

namespace FtpServer
open Interaction CString

def hostPort (addr : UInt32) (port : UInt16) : Bytes :=
  showNat (addr &&& 0xff).toNat ++ bytes "," ++ showNat (addr >>> 8 &&& 0xff).toNat ++
    bytes "," ++ showNat (addr >>> 16 &&& 0xff).toNat ++ bytes "," ++
    showNat (addr >>> 24 &&& 0xff).toNat ++ bytes "," ++ showNat (port / 256).toNat ++
    bytes "," ++ showNat (port % 256).toNat

theorem enteringPassive_text (addr : UInt32) (port : UInt16) :
    (Reply.enteringPassive addr port).text =
      bytes "227 Entering passive mode (" ++ hostPort addr port ++ bytes ")\r\n" := by
  simp only [Reply.text, hostPort, List.append_assoc]

section Reading

theorem not_mem_portDelims {b : Byte} (h : isdigit b = true) : b ∉ portDelims := by
  have hdelims : portDelims.all (fun d => !isdigit d) = true := by decide
  intro hmem
  have hnot := List.all_eq_true.mp hdelims b hmem
  simp [h] at hnot

theorem portcom_field (n : Nat) {k : Nat} (hk : k < 2 ^ 31) {s : Bytes}
    (hstop : ∀ d ∈ s.head?, d ∈ portDelims) :
    portcom (n + 1) (showNat k ++ s) = (portcom n s.tail).map ((k : Int) :: ·) := by
  have htoken := strtok_append (showNat_ne_nil k)
    (fun b hb => not_mem_portDelims (isdigit_of_mem_showNat hb)) hstop
  rw [portcom, htoken]
  simp only [atoi_showNat hk]

theorem portcom_hostPort (addr : UInt32) (port : UInt16) {s : Bytes}
    (hstop : ∀ d ∈ s.head?, d ∈ portDelims) :
    portcom 6 (hostPort addr port ++ s) = some [((addr &&& 0xff).toNat : Int),
      ((addr >>> 8 &&& 0xff).toNat : Int), ((addr >>> 16 &&& 0xff).toNat : Int),
      ((addr >>> 24 &&& 0xff).toNat : Int), ((port / 256).toNat : Int),
      ((port % 256).toNat : Int)] := by
  have hcomma : ∀ rest : Bytes, ∀ d ∈ (bytes "," ++ rest).head?, d ∈ portDelims := by
    intro rest d hd
    obtain rfl : byte ',' = d := Option.some.inj hd
    decide
  have htail : ∀ rest : Bytes, (bytes "," ++ rest).tail = rest := fun rest => rfl
  have hdword : ∀ n : UInt32, (n &&& 0xff).toNat < 2 ^ 31 := by
    intro n
    rw [UInt32.toNat_and]
    exact lt_of_le_of_lt Nat.and_le_right (by decide)
  have hword : ∀ n : UInt16, n.toNat < 2 ^ 31 := fun n => lt_trans n.toNat_lt (by decide)
  simp only [hostPort, List.append_assoc]
  rw [portcom_field 5 (hdword _) (hcomma _), htail, portcom_field 4 (hdword _) (hcomma _), htail,
    portcom_field 3 (hdword _) (hcomma _), htail, portcom_field 2 (hdword _) (hcomma _), htail,
    portcom_field 1 (hword _) (hcomma _), htail, portcom_field 0 (hword _) hstop]
  rfl

theorem dwordOfInt_toNat (n : UInt32) : dwordOfInt (n.toNat : Int) = n := by
  have hn := n.toNat_lt
  apply UInt32.toNat_inj.mp
  rw [dwordOfInt, UInt32.ofInt, UInt32.toNat_ofNat']
  omega

theorem portAddr_bytes (addr : UInt32) :
    portAddr ((addr &&& 0xff).toNat : Int) ((addr >>> 8 &&& 0xff).toNat : Int)
      ((addr >>> 16 &&& 0xff).toNat : Int) ((addr >>> 24 &&& 0xff).toNat : Int) = addr := by
  have hmask : ∀ i (hi : i < 32), (255#32)[i] = decide (i < 8) := by decide
  simp only [portAddr, dwordOfInt_toNat]
  apply UInt32.toBitVec_inj.mp
  ext i hi
  simp [hmask]
  grind

theorem portNumber_halves (port : UInt16) :
    portNumber ((port / 256).toNat : Int) ((port % 256).toNat : Int) = port := by
  have hport := port.toNat_lt
  have hbase : (256 : UInt16).toNat = 256 := rfl
  apply UInt16.toNat_inj.mp
  rw [portNumber, UInt16.ofInt, UInt16.toNat_ofNat', UInt16.toNat_div, UInt16.toNat_mod, hbase]
  omega

end Reading

/-- The argument is what a 227 reply says of this address, with or without the parentheses. -/
def Announces (addr : UInt32) (port : UInt16) (text : Bytes) : Prop :=
  (Reply.enteringPassive addr port).text =
      bytes "227 Entering passive mode (" ++ text ++ bytes ")\r\n" ∨
  (Reply.enteringPassive addr port).text =
      bytes "227 Entering passive mode " ++ text ++ bytes "\r\n"

theorem announces_iff (addr : UInt32) (port : UInt16) (text : Bytes) :
    Announces addr port text ↔
      text = hostPort addr port ∨ text = byte '(' :: (hostPort addr port ++ [byte ')']) := by
  have hhead : bytes "227 Entering passive mode (" =
      bytes "227 Entering passive mode " ++ [byte '('] := by decide
  have hlast : bytes ")\r\n" = [byte ')'] ++ bytes "\r\n" := by decide
  have hinner : ∀ pre s t post : Bytes, pre ++ s ++ post = pre ++ t ++ post ↔ t = s := by
    intro pre s t post
    rw [List.append_cancel_right_eq, List.append_cancel_left_eq, eq_comm]
  have houter : bytes "227 Entering passive mode (" ++ hostPort addr port ++ bytes ")\r\n" =
      bytes "227 Entering passive mode " ++ (byte '(' :: (hostPort addr port ++ [byte ')'])) ++
        bytes "\r\n" := by
    rw [hhead, hlast]
    simp only [List.append_assoc, List.cons_append, List.nil_append]
  rw [Announces, enteringPassive_text, hinner, houter, hinner]

@[simp] def connectOf (e : CallEvent) : Option (UInt32 × UInt16) :=
  match e.call with
  | .connect _ addr port => some (addr, port)
  | _ => none

def connectsIn (t : List CallEvent) : List (UInt32 × UInt16) :=
  t.flatMap fun e => (connectOf e).toList

theorem cmdPort_announced (conn : Conn) {addr : UInt32} {port : UInt16} {text : Bytes}
    (h : Announces addr port text) : cmdPort conn (some text) = portConnect conn addr port := by
  have hfields : portcom 6 text = some [((addr &&& 0xff).toNat : Int),
      ((addr >>> 8 &&& 0xff).toNat : Int), ((addr >>> 16 &&& 0xff).toNat : Int),
      ((addr >>> 24 &&& 0xff).toNat : Int), ((port / 256).toNat : Int),
      ((port % 256).toNat : Int)] := by
    rcases (announces_iff addr port text).mp h with rfl | rfl
    · simpa using portcom_hostPort addr port (s := []) (by simp)
    · have hopen : portcom 6 (byte '(' :: (hostPort addr port ++ [byte ')'])) =
          portcom 6 (hostPort addr port ++ [byte ')']) := by
        rw [portcom, portcom, strtok_skip (by decide)]
      rw [hopen]
      refine portcom_hostPort addr port ?_
      intro d hd
      obtain rfl : byte ')' = d := Option.some.inj hd
      decide
  have hfits : (dotted ((addr &&& 0xff).toNat : Int) ((addr >>> 8 &&& 0xff).toNat : Int)
      ((addr >>> 16 &&& 0xff).toNat : Int) ((addr >>> 24 &&& 0xff).toNat : Int)).length <
      Buffer.spareBuf.size :=
    dotted_length fun i hi => portcom_range hfields i (by simp at hi ⊢; tauto)
  change portParsed conn text = portConnect conn addr port
  simp only [portParsed, hfields, strcpy, hfits, if_true, portAddr_bytes, portNumber_halves]
  rfl

/-- The argument a client takes from a 227 reply makes PORT connect to the same address word
and the same port, in network order. -/
theorem port_connects_announced (conn : Conn) {addr : UInt32} {port : UInt16} {text : Bytes}
    (h : Announces addr port text) :
    Always (cmdPort conn (some text)) (fun t r =>
      (⟨.socket, (-1 : Int)⟩ ∈ t ∧ connectsIn t = [] ∨
        (connectsIn t).head? = some (addr, htons port)) ∧
      ∃ conn', r = .ok (conn', 0)) := by
  rw [cmdPort_announced conn h]
  simp [portConnect, portConnected, connectsIn]

theorem port_connects_announced_lan :
    Always (cmdPort justAccepted (some (bytes "(192,168,0,10,4,1)"))) (fun t r =>
      (⟨.socket, (-1 : Int)⟩ ∈ t ∧ connectsIn t = [] ∨
        (connectsIn t).head? = some (0x0A00A8C0, 0x0104)) ∧
      ∃ conn', r = .ok (conn', 0)) := by
  have hannounces : Announces 0x0A00A8C0 1025 (bytes "(192,168,0,10,4,1)") := .inr (by decide)
  exact port_connects_announced justAccepted hannounces

end FtpServer
