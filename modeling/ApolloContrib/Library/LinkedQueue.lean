import Mathlib.Data.List.Basic
import Mathlib.Data.List.Nodup
import Mathlib.Logic.Function.Basic

namespace ApolloContrib.Library

/-! A queue that is linked through a field of its nodes: what the links spell, and how
walking to the end, appending there and linking a node out change it. `read` is the link
field of a node, `none` where the node is not in memory. -/

variable {Node : Type*}

/-- From `first` on, the links spell `nodes`, all in memory, and end. -/
def Linked (read : Node → Option (Option Node)) : Option Node → List Node → Prop
  | first, [] => first = none
  | first, node :: nodes =>
      first = some node ∧ ∃ link, read node = some link ∧ Linked read link nodes

/-- `while (NULL != node->next) node = node->next`. -/
def lastFrom (read : Node → Option (Option Node)) : Nat → Node → Option Node
  | 0, _ => none
  | fuel + 1, node =>
      match read node with
      | none => none
      | some none => some node
      | some (some link) => lastFrom read fuel link

/-- The first node whose link is `target`, walking on until there is none. -/
def linkTo [DecidableEq Node] (read : Node → Option (Option Node)) (target : Node) :
    Nat → Option Node → Option (Option Node)
  | _, none => some none
  | 0, some _ => none
  | fuel + 1, some node =>
      match read node with
      | none => none
      | some link =>
          if link = some target then some (some node) else linkTo read target fuel link

section Spelling

variable {read read' : Node → Option (Option Node)} {first : Option Node}
  {nodes others : List Node} {node : Node}

@[simp] theorem linked_nil : Linked read first [] ↔ first = none := Iff.rfl

@[simp] theorem linked_cons :
    Linked read first (node :: nodes) ↔
      first = some node ∧ ∃ link, read node = some link ∧ Linked read link nodes := Iff.rfl

theorem Linked.head (hlinked : Linked read first nodes) : first = nodes.head? := by
  cases nodes with
  | nil => exact hlinked
  | cons node nodes => exact hlinked.1

theorem Linked.unique (hnodes : Linked read first nodes) (hothers : Linked read first others) :
    nodes = others := by
  induction nodes generalizing first others with
  | nil =>
      have hhead := hothers.head
      rw [linked_nil.mp hnodes] at hhead
      exact (List.head?_eq_none_iff.mp hhead.symm).symm
  | cons node nodes ih =>
      obtain ⟨rfl, link, hread, hrest⟩ := hnodes
      cases others with
      | nil => exact absurd hothers (by simp)
      | cons other others =>
          obtain ⟨hsame, link', hread', hrest'⟩ := hothers
          obtain rfl := Option.some.inj hsame
          obtain rfl := Option.some.inj (hread.symm.trans hread')
          rw [ih hrest hrest']

theorem Linked.readable (hlinked : Linked read first nodes) (hmem : node ∈ nodes) :
    ∃ link, read node = some link := by
  induction nodes generalizing first with
  | nil => exact absurd hmem List.not_mem_nil
  | cons head nodes ih =>
      obtain ⟨-, link, hread, hrest⟩ := hlinked
      rcases List.mem_cons.mp hmem with rfl | hmem
      · exact ⟨link, hread⟩
      · exact ih hrest hmem

theorem Linked.congr (hlinked : Linked read first nodes)
    (hsame : ∀ node ∈ nodes, read' node = read node) : Linked read' first nodes := by
  induction nodes generalizing first with
  | nil => exact hlinked
  | cons node nodes ih =>
      obtain ⟨hfirst, link, hread, hrest⟩ := hlinked
      refine ⟨hfirst, link, (hsame node List.mem_cons_self).trans hread, ?_⟩
      exact ih hrest fun other hother => hsame other (List.mem_cons_of_mem _ hother)

/-- The links after any part of the queue spell the rest. -/
theorem Linked.drop (hlinked : Linked read first (nodes ++ others)) :
    ∃ link, Linked read link others := by
  induction nodes generalizing first with
  | nil => exact ⟨first, hlinked⟩
  | cons node nodes ih =>
      obtain ⟨-, link, -, hrest⟩ := hlinked
      exact ih hrest

theorem Linked.not_mem_tail (hlinked : Linked read first (node :: nodes)) :
    node ∉ nodes := by
  intro hmem
  obtain ⟨before, after, rfl⟩ := List.append_of_mem hmem
  obtain ⟨-, link, hread, hrest⟩ := hlinked
  obtain ⟨_, -, link', hread', hrest'⟩ := hrest.drop
  obtain rfl := Option.some.inj (hread.symm.trans hread')
  -- what follows the second time is what follows the first time
  have hlength := congrArg List.length (hrest.unique hrest')
  simp only [List.length_append, List.length_cons] at hlength
  omega

theorem Linked.nodup (hlinked : Linked read first nodes) : nodes.Nodup := by
  induction nodes generalizing first with
  | nil => exact List.nodup_nil
  | cons node nodes ih =>
      obtain ⟨-, link, -, hrest⟩ := id hlinked
      exact List.nodup_cons.mpr ⟨hlinked.not_mem_tail, ih hrest⟩

end Spelling

section Append

variable {read : Node → Option (Option Node)} {first : Option Node} {nodes : List Node}
  {node last : Node}

theorem lastFrom_eq (hlinked : Linked read (some node) nodes) {fuel : Nat}
    (hfuel : nodes.length ≤ fuel) : lastFrom read fuel node = nodes.getLast? := by
  induction nodes generalizing node fuel with
  | nil => exact absurd hlinked (by simp)
  | cons head nodes ih =>
      obtain ⟨hfirst, link, hread, hrest⟩ := hlinked
      obtain rfl := Option.some.inj hfirst
      cases fuel with
      | zero => exact absurd hfuel (by simp)
      | succ fuel =>
          cases link with
          | none =>
              obtain rfl := List.head?_eq_none_iff.mp hrest.head.symm
              simp only [lastFrom, hread]
              rfl
          | some second =>
              cases nodes with
              | nil => exact absurd hrest (by simp)
              | cons other nodes =>
                  simp only [lastFrom, hread]
                  rw [List.getLast?_cons_cons]
                  exact ih hrest (by simpa using hfuel)

variable [DecidableEq Node]

open Function in
/-- `last->next = node; node->next = NULL`. -/
theorem Linked.snoc (hlinked : Linked read first nodes)
    (hlast : nodes.getLast? = some last) (hnew : node ∉ nodes) :
    Linked (update (update read last (some (some node))) node (some none)) first
      (nodes ++ [node]) := by
  induction nodes generalizing first with
  | nil => simp at hlast
  | cons head nodes ih =>
      obtain ⟨hfirst, link, hread, hrest⟩ := id hlinked
      have hne : head ≠ node := fun heq => hnew (heq ▸ List.mem_cons_self)
      rw [List.cons_append, linked_cons, update_of_ne hne]
      cases nodes with
      | nil =>
          obtain rfl : head = last := by simpa using hlast
          exact ⟨hfirst, some node, update_self .., rfl, none, update_self .., rfl⟩
      | cons second nodes =>
          rw [List.getLast?_cons_cons] at hlast
          have hother : head ≠ last := by
            rintro rfl
            exact hlinked.not_mem_tail (List.mem_of_getLast? hlast)
          rw [update_of_ne hother]
          exact ⟨hfirst, link, hread, ih hrest hlast fun hmem =>
            hnew (List.mem_cons_of_mem _ hmem)⟩

end Append

section Unlink

variable [DecidableEq Node] {read : Node → Option (Option Node)} {first link : Option Node}
  {nodes : List Node} {target last : Node}

/-- The walk ends at the node before `target`, or past the end when there is none. -/
theorem linkTo_eq (hlinked : Linked read first nodes) {fuel : Nat}
    (hfuel : nodes.length ≤ fuel) :
    linkTo read target fuel first =
      some (nodes.find? fun node => read node = some (some target)) := by
  induction nodes generalizing first fuel with
  | nil =>
      rw [linked_nil.mp hlinked]
      cases fuel <;> rfl
  | cons node nodes ih =>
      obtain ⟨rfl, link, hread, hrest⟩ := hlinked
      cases fuel with
      | zero => exact absurd hfuel (by simp)
      | succ fuel =>
          simp only [linkTo, hread]
          split
          · next hstop =>
              rw [List.find?_cons_of_pos (by simp [hread, hstop])]
          · next hgo =>
              rw [List.find?_cons_of_neg (by simp [hread, hgo])]
              exact ih hrest (by simpa using hfuel)

theorem Linked.find_link {before after : List Node}
    (hlinked : Linked read first (before ++ last :: target :: after)) :
    ((before ++ last :: target :: after).find? fun node => read node = some (some target)) =
      some last := by
  have hnodup := hlinked.nodup
  induction before generalizing first with
  | nil =>
      obtain ⟨-, link, hread, hlink, -⟩ := hlinked
      exact List.find?_cons_of_pos (by simp [hread, hlink])
  | cons head before ih =>
      obtain ⟨-, link, hread, hrest⟩ := hlinked
      have hneg : link ≠ some target := by
        rintro rfl
        rw [List.cons_append, List.nodup_cons] at hnodup
        -- the next node is `last` or stands before it
        have hhead := hrest.head
        cases before with
        | nil =>
            obtain rfl : target = last := by simpa using hhead
            simp at hnodup
        | cons second before =>
            obtain rfl : target = second := by simpa using hhead
            simp at hnodup
      rw [List.cons_append, List.find?_cons_of_neg (by simp [hread, hneg])]
      exact ih hrest (List.nodup_cons.mp hnodup).2

theorem Linked.find_none (hlinked : Linked read first nodes) (hout : target ∉ nodes) :
    (nodes.find? fun node => read node = some (some target)) = none := by
  induction nodes generalizing first with
  | nil => rfl
  | cons node nodes ih =>
      obtain ⟨-, link, hread, hrest⟩ := hlinked
      have hneg : link ≠ some target := by
        rintro rfl
        exact hout (List.mem_cons_of_mem _ (List.mem_of_head? hrest.head.symm))
      rw [List.find?_cons_of_neg (by simp [hread, hneg])]
      exact ih hrest fun hmem => hout (List.mem_cons_of_mem _ hmem)

open Function in
/-- `last->next = target->next; target->next = NULL`. -/
theorem Linked.unlink {before after : List Node}
    (hlinked : Linked read first (before ++ last :: target :: after))
    (hlink : read target = some link) :
    Linked (update (update read last (some link)) target (some none)) first
      (before ++ last :: after) := by
  have hnodup := hlinked.nodup
  induction before generalizing first with
  | nil =>
      simp only [List.nil_append, List.nodup_cons, List.mem_cons, not_or] at hnodup
      obtain ⟨⟨hlast, hlast'⟩, htarget, hafter⟩ := hnodup
      obtain ⟨hfirst, -, -, -, link', hread, hrest⟩ := hlinked
      obtain rfl := Option.some.inj (hlink.symm.trans hread)
      refine ⟨hfirst, link, ?_, ?_⟩
      · rw [update_of_ne hlast, update_self]
      · refine hrest.congr fun node hnode => ?_
        rw [update_of_ne (ne_of_mem_of_not_mem hnode htarget),
          update_of_ne (ne_of_mem_of_not_mem hnode hlast')]
  | cons head before ih =>
      simp only [List.cons_append, List.nodup_cons, List.mem_append, List.mem_cons, not_or]
        at hnodup
      obtain ⟨⟨-, hlast, htarget, -⟩, hrest⟩ := hnodup
      obtain ⟨hfirst, next, hread, hnext⟩ := hlinked
      refine ⟨hfirst, next, ?_, ih hnext (by simpa using hrest)⟩
      rw [update_of_ne htarget, update_of_ne hlast]
      exact hread

end Unlink

end ApolloContrib.Library
