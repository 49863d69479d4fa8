import Mathlib.Data.List.Basic

namespace ApolloContrib.Library

/-! Texts as bytes, and the first occurrence of a pattern in a text. -/

def ascii (text : String) : List (BitVec 8) := text.toList.map fun c => BitVec.ofNat 8 c.toNat

variable {α : Type*} [DecidableEq α]

def indexOf (pat : List α) : List α → Option Nat
  | [] => if pat = [] then some 0 else none
  | c :: text => if pat <+: c :: text then some 0 else (indexOf pat text).map (· + 1)

/-- The pattern does not start in `before`, whatever follows. -/
def Apart (pat : List α) : List α → Prop
  | [] => True
  | c :: before => (¬ pat <+: c :: before ∧ ¬ c :: before <+: pat) ∧ Apart pat before

instance decidableApart (pat : List α) : DecidablePred (Apart pat)
  | [] => isTrue trivial
  | _ :: before =>
      have : Decidable (Apart pat before) := decidableApart pat before
      inferInstanceAs (Decidable (_ ∧ _))

variable {pat before after text : List α}

theorem indexOf_prefix (pat text : List α) : indexOf pat (pat ++ text) = some 0 := by
  cases htext : pat ++ text with
  | nil => exact if_pos (List.append_eq_nil_iff.mp htext).1
  | cons c rest => exact if_pos (htext ▸ List.prefix_append pat text)

omit [DecidableEq α] in
theorem Apart.append (hbefore : Apart pat before) (hafter : Apart pat after) :
    Apart pat (before ++ after) := by
  induction before with
  | nil => exact hafter
  | cons c before ih =>
      obtain ⟨⟨hlong, hshort⟩, hrest⟩ := hbefore
      refine ⟨⟨fun hprefix => ?_, fun hprefix => ?_⟩, ih hrest⟩
      · have hcases :=
          List.prefix_or_prefix_of_prefix hprefix (List.prefix_append (c :: before) after)
        exact hcases.elim hlong hshort
      · exact hshort ((List.prefix_append (c :: before) after).trans hprefix)

omit [DecidableEq α] in
theorem apart_of_not_mem {c : α} (hc : c ∉ before) : Apart (c :: pat) before := by
  induction before with
  | nil => trivial
  | cons d before ih =>
      obtain ⟨hd, hrest⟩ := not_or.mp (mt List.mem_cons.mpr hc)
      exact ⟨⟨fun h => hd (List.cons_prefix_cons.mp h).1,
        fun h => hd (List.cons_prefix_cons.mp h).1.symm⟩, ih hrest⟩

theorem indexOf_append (hbefore : Apart pat before) (text : List α) :
    indexOf pat (before ++ text) = (indexOf pat text).map (· + before.length) := by
  induction before with
  | nil => exact Option.map_id'.symm
  | cons c before ih =>
      obtain ⟨⟨hlong, hshort⟩, hrest⟩ := hbefore
      have hnot : ¬ pat <+: c :: (before ++ text) := fun hprefix =>
        (List.prefix_or_prefix_of_prefix hprefix (List.prefix_append (c :: before) text)).elim
          hlong hshort
      rw [List.cons_append, indexOf, if_neg hnot, ih hrest, Option.map_map]
      rfl

theorem indexOf_behind (hbefore : Apart pat before) (text : List α) :
    indexOf pat (before ++ (pat ++ text)) = some before.length := by
  rw [indexOf_append hbefore, indexOf_prefix, Option.map_some, Nat.zero_add]

end ApolloContrib.Library
