import Mathlib.Tactic

/-! Singly linked lists in memory. A segment is the run of nodes that a pointer leads
through, with their addresses and values; a chain is a segment that ends at NULL. That a
segment is finite is all that has to be said of a chain: it then repeats no node. -/

namespace LinkedList

structure Node (Addr α : Type) where
  val : α
  next : Option Addr

abbrev Heap (Addr α : Type) := Addr → Option (Node Addr α)

variable {Addr α : Type}

/-- `nodes` leads from `p` to `q`. -/
def Segment (heap : Heap Addr α) : Option Addr → List (Addr × α) → Option Addr → Prop
  | p, [], q => p = q
  | p, (a, v) :: nodes, q =>
    p = some a ∧ ∃ next, heap a = some ⟨v, next⟩ ∧ Segment heap next nodes q

def Chain (heap : Heap Addr α) (p : Option Addr) (nodes : List (Addr × α)) : Prop :=
  Segment heap p nodes none

def addrs (nodes : List (Addr × α)) : List Addr := nodes.map Prod.fst

section Structure
variable {heap heap' : Heap Addr α} {p q : Option Addr} {nodes nodes' : List (Addr × α)}

@[simp] theorem addrs_nil : addrs ([] : List (Addr × α)) = [] := rfl

@[simp] theorem addrs_cons (n : Addr × α) (nodes : List (Addr × α)) :
    addrs (n :: nodes) = n.1 :: addrs nodes := rfl

@[simp] theorem addrs_append (nodes nodes' : List (Addr × α)) :
    addrs (nodes ++ nodes') = addrs nodes ++ addrs nodes' := List.map_append

@[simp] theorem segment_nil : Segment heap p [] q ↔ p = q := Iff.rfl

@[simp] theorem segment_cons (a : Addr) (v : α) :
    Segment heap p ((a, v) :: nodes) q ↔
      p = some a ∧ ∃ next, heap a = some ⟨v, next⟩ ∧ Segment heap next nodes q := Iff.rfl

theorem segment_append :
    Segment heap p (nodes ++ nodes') q ↔
      ∃ r, Segment heap p nodes r ∧ Segment heap r nodes' q := by
  induction nodes generalizing p with
  | nil => simp
  | cons n nodes ih =>
    obtain ⟨a, v⟩ := n
    simp only [List.cons_append, segment_cons, ih]
    constructor
    · rintro ⟨hp, next, hnode, r, hleft, hright⟩
      exact ⟨r, ⟨hp, next, hnode, hleft⟩, hright⟩
    · rintro ⟨r, ⟨hp, next, hnode, hleft⟩, hright⟩
      exact ⟨hp, next, hnode, r, hleft, hright⟩

theorem Chain.unique (h : Chain heap p nodes) (h' : Chain heap p nodes') : nodes' = nodes := by
  induction nodes generalizing p nodes' with
  | nil =>
    obtain rfl : p = none := h
    cases nodes' with
    | nil => rfl
    | cons n nodes' => cases h'.1
  | cons n nodes ih =>
    obtain ⟨a, v⟩ := n
    obtain ⟨hp, next, hnode, hrest⟩ := h
    cases nodes' with
    | nil =>
      rw [hp] at h'
      cases h'
    | cons n' nodes' =>
      obtain ⟨a', v'⟩ := n'
      obtain ⟨hp', next', hnode', hrest'⟩ := h'
      obtain rfl : a' = a := Option.some.inj (hp'.symm.trans hp)
      obtain ⟨rfl, rfl⟩ : v' = v ∧ next' = next := by
        simpa using Option.some.inj (hnode'.symm.trans hnode)
      rw [ih hrest hrest']

theorem Chain.pointer (h : Chain heap p nodes) (h' : Chain heap' q nodes) : q = p := by
  cases nodes with
  | nil => exact Eq.trans h' (Eq.symm h)
  | cons n nodes => exact Eq.trans h'.1 h.1.symm

theorem Segment.mem (h : Segment heap p nodes q) {a : Addr} (ha : a ∈ addrs nodes) :
    heap a ≠ none := by
  induction nodes generalizing p with
  | nil => cases ha
  | cons n nodes ih =>
    obtain ⟨b, v⟩ := n
    obtain ⟨-, next, hnode, hrest⟩ := h
    rcases List.mem_cons.mp ha with rfl | hmem
    · rw [hnode]
      simp
    · exact ih hrest hmem

/-- A chain does not come back to a node: from there it would be two chains of different
length. -/
theorem Chain.nodup (h : Chain heap p nodes) : (addrs nodes).Nodup := by
  induction nodes generalizing p with
  | nil => exact List.nodup_nil
  | cons n nodes ih =>
    obtain ⟨a, v⟩ := n
    have hrest := h
    obtain ⟨rfl, next, hnode, hchain⟩ := hrest
    rw [addrs_cons, List.nodup_cons]
    refine ⟨?_, ih hchain⟩
    intro hmem
    obtain ⟨⟨b, w⟩, hin, hb⟩ := List.mem_map.mp hmem
    obtain rfl : b = a := hb
    obtain ⟨before, after, rfl⟩ := List.append_of_mem hin
    obtain ⟨r, -, hagain⟩ := segment_append.mp hchain
    obtain rfl : r = some b := hagain.1
    have hsame := Chain.unique h hagain
    have hlen := congrArg List.length hsame
    simp at hlen
    omega

theorem Segment.frame (h : Segment heap p nodes q)
    (hsame : ∀ a ∈ addrs nodes, heap' a = heap a) : Segment heap' p nodes q := by
  induction nodes generalizing p with
  | nil => exact h
  | cons n nodes ih =>
    obtain ⟨a, v⟩ := n
    obtain ⟨hp, next, hnode, hrest⟩ := h
    refine ⟨hp, next, ?_, ih hrest fun b hb => hsame b (List.mem_cons_of_mem _ hb)⟩
    rw [hsame a List.mem_cons_self, hnode]

end Structure

section Updates
variable [DecidableEq Addr] {heap : Heap Addr α} {p q : Option Addr}
  {before after nodes : List (Addr × α)} {a b : Addr} {u v : α} {next : Option Addr}

theorem Segment.update (h : Segment heap p nodes q) (ha : a ∉ addrs nodes)
    (node : Option (Node Addr α)) : Segment (Function.update heap a node) p nodes q := by
  apply h.frame
  intro c hc
  apply Function.update_of_ne
  rintro rfl
  exact ha hc

theorem Chain.push (h : Chain heap p nodes) (hfree : heap a = none) (v : α) :
    Chain (Function.update heap a (some ⟨v, p⟩)) (some a) ((a, v) :: nodes) := by
  refine ⟨rfl, p, Function.update_self .., Segment.update h ?_ _⟩
  exact fun hmem => Segment.mem h hmem hfree

theorem Chain.set (h : Chain heap p (before ++ (a, v) :: after))
    (hnode : heap a = some ⟨v, next⟩) (v' : α) :
    Chain (Function.update heap a (some ⟨v', next⟩)) p (before ++ (a, v') :: after) := by
  have hnodup := h.nodup
  rw [addrs_append, addrs_cons, List.nodup_middle, List.nodup_cons, List.mem_append,
    not_or] at hnodup
  obtain ⟨r, hbefore, rfl, next', hnode', hafter⟩ := segment_append.mp h
  obtain rfl : next' = next := by
    simpa using congrArg Node.next (Option.some.inj (hnode'.symm.trans hnode))
  refine segment_append.mpr ⟨some a, hbefore.update hnodup.1.1 _, rfl, next', ?_,
    hafter.update hnodup.1.2 _⟩
  rw [Function.update_self]

theorem Chain.unlink_head (h : Chain heap p ((a, v) :: after)) (hnode : heap a = some ⟨v, next⟩) :
    Chain (Function.update heap a none) next after := by
  have hnodup := h.nodup
  rw [addrs_cons, List.nodup_cons] at hnodup
  obtain ⟨-, next', hnode', hafter⟩ := h
  obtain rfl : next' = next := by
    simpa using congrArg Node.next (Option.some.inj (hnode'.symm.trans hnode))
  exact hafter.update hnodup.1 _

theorem Chain.unlink_next (h : Chain heap p (before ++ (b, u) :: (a, v) :: after))
    (hnode : heap a = some ⟨v, next⟩) :
    Chain (Function.update (Function.update heap b (some ⟨u, next⟩)) a none) p
      (before ++ (b, u) :: after) := by
  have hnodup := h.nodup
  obtain ⟨r, hbefore, rfl, c, hb, hrest⟩ := segment_append.mp h
  obtain ⟨rfl, next', hnode', hafter⟩ := hrest
  obtain rfl : next' = next := by
    simpa using congrArg Node.next (Option.some.inj (hnode'.symm.trans hnode))
  rw [addrs_append, addrs_cons, addrs_cons, List.nodup_middle, List.nodup_cons,
    List.nodup_middle, List.nodup_cons] at hnodup
  simp only [List.mem_append, List.mem_cons, not_or] at hnodup
  obtain ⟨⟨hb₁, hba, hb₂⟩, ⟨ha₁, ha₂⟩, -⟩ := hnodup
  refine segment_append.mpr ⟨some b, (hbefore.update hb₁ _).update ha₁ _, rfl, next', ?_,
    (hafter.update hb₂ _).update ha₂ _⟩
  rw [Function.update_of_ne hba, Function.update_self]

end Updates

end LinkedList
