import Mathlib.Data.Finset.Card
import Mathlib.Data.Finset.Image
import Mathlib.Data.Finset.Max
import Mathlib.Data.Nat.Find
import Mathlib.Logic.Function.Basic
import Mathlib.Order.WithBot

namespace ApolloContrib.Library

/-! Ranks by repeated search: each round looks for the next greater value and numbers the first
index that has it. An index without a value is never chosen. -/

variable {α : Type*} [LinearOrder α]

/-- The least value over `bound` of the first `n` indices, and the first of them that has it. -/
def nextValue (value : Nat → Option α) (bound : WithBot α) : Nat → Option (α × Nat)
  | 0 => none
  | n + 1 =>
      match value n, nextValue value bound n with
      | none, best => best
      | some a, none => if bound < a then some (a, n) else none
      | some a, some best => if bound < a ∧ a < best.1 then some (a, n) else some best

def rankRounds (value : Nat → Option α) (n : Nat) : Nat → WithBot α × (Nat → Nat)
  | 0 => (⊥, fun _ => 0)
  | round + 1 =>
      match nextValue value (rankRounds value n round).1 n with
      | none => rankRounds value n round
      | some (a, index) => (a, Function.update (rankRounds value n round).2 index round)

/-- The different values of the first `n` indices. -/
def valuesBelow (value : Nat → Option α) (n : Nat) : Finset α :=
  ((List.range n).filterMap value).toFinset

def countLess (value : Nat → Option α) (n : Nat) (a : α) : Nat :=
  ((valuesBelow value n).filter (· < a)).card

def FirstOf (value : Nat → Option α) (a : α) (index : Nat) : Prop :=
  value index = some a ∧ ∀ earlier < index, value earlier ≠ some a

section Rules

variable {value : Nat → Option α} {bound : WithBot α} {n index : Nat} {a b : α}

@[simp] theorem mem_valuesBelow : a ∈ valuesBelow value n ↔ ∃ index < n, value index = some a := by
  simp [valuesBelow]

theorem nextValue_wins (hvalue : value n = some a) (habove : bound < a)
    (hless : ∀ best ∈ nextValue value bound n, a < best.1) :
    nextValue value bound (n + 1) = some (a, n) := by
  rw [nextValue, hvalue]
  cases hbest : nextValue value bound n with
  | none => exact if_pos habove
  | some best => exact if_pos ⟨habove, hless best hbest⟩

theorem nextValue_keeps (hloses : ∀ a, value n = some a → bound < a →
      ¬ ∀ best ∈ nextValue value bound n, a < best.1) :
    nextValue value bound (n + 1) = nextValue value bound n := by
  rw [nextValue]
  cases hvalue : value n with
  | none => rfl
  | some a =>
      cases hbest : nextValue value bound n with
      | none => exact if_neg fun habove => hloses a hvalue habove (by simp [hbest])
      | some best =>
          refine if_neg fun hwins => hloses a hvalue hwins.1 ?_
          intro other hother
          obtain rfl := Option.some.inj (hbest.symm.trans hother)
          exact hwins.2

structure IsNext (value : Nat → Option α) (bound : WithBot α) (n : Nat) (a : α)
    (index : Nat) : Prop where
  lt : index < n
  above : bound < a
  least : ∀ b ∈ valuesBelow value n, bound < b → a ≤ b
  first : FirstOf value a index

theorem valuesBelow_succ :
    b ∈ valuesBelow value (n + 1) ↔ b ∈ valuesBelow value n ∨ value n = some b := by
  simp only [mem_valuesBelow]
  constructor
  · intro hmem
    obtain ⟨index, hlt, hvalue⟩ := hmem
    rcases Nat.lt_succ_iff_lt_or_eq.mp hlt with hbefore | rfl
    · exact .inl ⟨index, hbefore, hvalue⟩
    · exact .inr hvalue
  · intro hmem
    rcases hmem with ⟨index, hlt, hvalue⟩ | hvalue
    · exact ⟨index, Nat.lt_succ_of_lt hlt, hvalue⟩
    · exact ⟨n, Nat.lt_succ_self n, hvalue⟩

theorem nextValue_none (hnone : nextValue value bound n = none) :
    ∀ b ∈ valuesBelow value n, ¬ bound < b := by
  induction n with
  | zero => simp [valuesBelow]
  | succ n ih =>
      intro b hb
      rw [nextValue] at hnone
      cases hvalue : value n with
      | none =>
          rw [hvalue] at hnone
          rcases valuesBelow_succ.mp hb with hbefore | hlast
          · exact ih hnone b hbefore
          · cases hvalue.symm.trans hlast
      | some a =>
          cases hbest : nextValue value bound n with
          | none =>
              simp only [hvalue, hbest] at hnone
              split at hnone
              · cases hnone
              · next hbelow =>
                  rcases valuesBelow_succ.mp hb with hbefore | hlast
                  · exact ih hbest b hbefore
                  · obtain rfl := Option.some.inj (hvalue.symm.trans hlast)
                    exact hbelow
          | some best =>
              simp only [hvalue, hbest] at hnone
              split at hnone <;> cases hnone

/-- The search so far, with an index that does not win. -/
theorem IsNext.keep (hnext : IsNext value bound n a index)
    (hlast : ∀ b, value n = some b → bound < b → a ≤ b) : IsNext value bound (n + 1) a index where
  lt := Nat.lt_succ_of_lt hnext.lt
  above := hnext.above
  least b hb hbound := by
    rcases valuesBelow_succ.mp hb with hbefore | hvalue
    · exact hnext.least b hbefore hbound
    · exact hlast b hvalue hbound
  first := hnext.first

/-- The last index wins when its value is under all the others over the bound. -/
theorem isNext_last (hvalue : value n = some a) (habove : bound < a)
    (hless : ∀ b ∈ valuesBelow value n, bound < b → a < b) : IsNext value bound (n + 1) a n where
  lt := Nat.lt_succ_self n
  above := habove
  least b hb hbound := by
    rcases valuesBelow_succ.mp hb with hbefore | hlast
    · exact (hless b hbefore hbound).le
    · exact (Option.some.inj (hvalue.symm.trans hlast)).le
  first := by
    refine ⟨hvalue, ?_⟩
    intro earlier hearlier hsame
    exact lt_irrefl a (hless a (mem_valuesBelow.mpr ⟨earlier, hearlier, hsame⟩) habove)

theorem nextValue_some (hsome : nextValue value bound n = some (a, index)) :
    IsNext value bound n a index := by
  induction n generalizing a index with
  | zero => cases hsome
  | succ n ih =>
      rw [nextValue] at hsome
      cases hvalue : value n with
      | none =>
          rw [hvalue] at hsome
          exact (ih hsome).keep (by simp [hvalue])
      | some last =>
          cases hbest : nextValue value bound n with
          | none =>
              simp only [hvalue, hbest] at hsome
              split at hsome
              · next habove =>
                  cases hsome
                  exact isNext_last hvalue habove fun b hb hbound =>
                    absurd hbound (nextValue_none hbest b hb)
              · cases hsome
          | some best =>
              obtain ⟨least, first⟩ := best
              simp only [hvalue, hbest] at hsome
              split at hsome
              · next hwins =>
                  cases hsome
                  exact isNext_last hvalue hwins.1 fun b hb hbound =>
                    hwins.2.trans_le ((ih hbest).least b hb hbound)
              · next hloses =>
                  cases hsome
                  refine (ih hbest).keep ?_
                  intro b hb hbound
                  obtain rfl := Option.some.inj (hvalue.symm.trans hb)
                  exact not_lt.mp fun hless => hloses ⟨hbound, hless⟩

/-- The first index of a value up to the bound has its number, and no other has one. -/
structure Ranked (value : Nat → Option α) (n round : Nat) (bound : WithBot α)
    (ranks : Nat → Nat) : Prop where
  some : ∀ {a index}, FirstOf value a index → index < n → a ≤ bound →
    ranks index = countLess value n a
  none : ∀ {index}, (∀ a, FirstOf value a index → index < n → ¬ a ≤ bound) → ranks index = 0
  count : ((valuesBelow value n).filter (fun a : α => a ≤ bound)).card = round ∨
    ∀ a ∈ valuesBelow value n, a ≤ bound

omit [LinearOrder α] in
theorem FirstOf.unique {other : α} (hfirst : FirstOf value a index)
    (hother : FirstOf value other index) : other = a :=
  Option.some.inj (hother.1.symm.trans hfirst.1)

omit [LinearOrder α] in
theorem FirstOf.index_unique {other : Nat} (hfirst : FirstOf value a index)
    (hother : FirstOf value a other) : other = index := by
  rcases Nat.lt_trichotomy other index with hlt | hsame | hlt
  · exact absurd hother.1 (hfirst.2 other hlt)
  · exact hsame
  · exact absurd hfirst.1 (hother.2 index hlt)

theorem ranked_zero : Ranked value n 0 ⊥ fun _ => 0 where
  some _ _ hle := absurd hle (WithBot.not_coe_le_bot _)
  none _ := rfl
  count := .inl (by simp)

theorem IsNext.lt_iff (hnext : IsNext value bound n a index) (hb : b ∈ valuesBelow value n) :
    b < a ↔ b ≤ bound := by
  constructor
  · intro hless
    exact not_lt.mp fun hbound => absurd (hnext.least b hb hbound) (not_le.mpr hless)
  · intro hle
    exact WithBot.coe_lt_coe.mp (hle.trans_lt hnext.above)

theorem IsNext.mem (hnext : IsNext value bound n a index) : a ∈ valuesBelow value n :=
  mem_valuesBelow.mpr ⟨index, hnext.lt, hnext.first.1⟩

theorem Ranked.next {round : Nat} {ranks : Nat → Nat} (hranked : Ranked value n round bound ranks)
    (hnext : IsNext value bound n a index) :
    Ranked value n (round + 1) a (Function.update ranks index round) := by
  have hless : (valuesBelow value n).filter (· < a) =
      (valuesBelow value n).filter (fun b : α => b ≤ bound) :=
    Finset.filter_congr fun b hb => hnext.lt_iff hb
  have hround : countLess value n a = round := by
    rw [countLess, hless]
    exact hranked.count.resolve_right fun hall => not_lt.mpr (hall a hnext.mem) hnext.above
  refine ⟨?_, ?_, .inl ?_⟩
  · intro b other hfirst hother hle
    rcases (WithBot.coe_le_coe.mp hle).lt_or_eq with hlt | rfl
    · have hb : b ∈ valuesBelow value n := mem_valuesBelow.mpr ⟨other, hother, hfirst.1⟩
      have hapart : other ≠ index := by
        intro hsame
        subst hsame
        exact hlt.ne (hnext.first.unique hfirst)
      rw [Function.update_of_ne hapart]
      exact hranked.some hfirst hother ((hnext.lt_iff hb).mp hlt)
    · rw [hnext.first.index_unique hfirst, Function.update_self, hround]
  · intro other hnone
    have hapart : other ≠ index := by
      intro hsame
      subst hsame
      exact hnone a hnext.first hnext.lt le_rfl
    rw [Function.update_of_ne hapart]
    refine hranked.none ?_
    intro b hfirst hother hle
    exact hnone b hfirst hother (hle.trans hnext.above.le)
  · have hsplit : (valuesBelow value n).filter (fun b : α => (b : WithBot α) ≤ a) =
        insert a ((valuesBelow value n).filter (· < a)) := by
      ext b
      simp only [Finset.mem_filter, Finset.mem_insert, WithBot.coe_le_coe]
      constructor
      · intro hmem
        rcases hmem.2.lt_or_eq with hlt | rfl
        · exact .inr ⟨hmem.1, hlt⟩
        · exact .inl rfl
      · intro hmem
        rcases hmem with rfl | hmem
        · exact ⟨hnext.mem, le_rfl⟩
        · exact ⟨hmem.1, hmem.2.le⟩
    rw [hsplit, Finset.card_insert_of_notMem (by simp)]
    exact congrArg Nat.succ hround

theorem ranked_rounds (round : Nat) :
    Ranked value n round (rankRounds value n round).1 (rankRounds value n round).2 := by
  induction round with
  | zero => exact ranked_zero
  | succ round ih =>
      cases hnext : nextValue value (rankRounds value n round).1 n with
      | none =>
          simp only [rankRounds, hnext]
          refine ⟨ih.some, ih.none, .inr ?_⟩
          intro a ha
          exact not_lt.mp (nextValue_none hnext a ha)
      | some found =>
          obtain ⟨a, index⟩ := found
          simp only [rankRounds, hnext]
          exact ih.next (nextValue_some hnext)

theorem card_valuesBelow_le : (valuesBelow value n).card ≤ n := by
  refine (List.toFinset_card_le _).trans ?_
  exact (List.length_filterMap_le _ _).trans_eq List.length_range

/-- After as many rounds as there are indices, the first index of each value has the number of
the different values below it, and every other index has 0. -/
theorem rankRounds_spec :
    (∀ {a index}, FirstOf value a index → index < n →
      (rankRounds value n n).2 index = countLess value n a) ∧
    ∀ {index}, (∀ a, FirstOf value a index → ¬ index < n) → (rankRounds value n n).2 index = 0 := by
  have hranked : Ranked value n n _ _ := ranked_rounds n
  have hall : ∀ a ∈ valuesBelow value n, a ≤ (rankRounds value n n).1 := by
    rcases hranked.count with hcount | hall
    · have hfull : (valuesBelow value n).filter
          (fun a : α => a ≤ (rankRounds value n n).1) = valuesBelow value n :=
        Finset.eq_of_subset_of_card_le (Finset.filter_subset _ _)
          (card_valuesBelow_le.trans_eq hcount.symm)
      intro a ha
      rw [← hfull] at ha
      exact (Finset.mem_filter.mp ha).2
    · exact hall
  constructor
  · intro a index hfirst hlt
    exact hranked.some hfirst hlt (hall a (mem_valuesBelow.mpr ⟨index, hlt, hfirst.1⟩))
  · intro index hnone
    exact hranked.none fun a hfirst hlt => absurd hlt (hnone a hfirst)

theorem countLess_lt (ha : a ∈ valuesBelow value n) (hless : a < b) :
    countLess value n a < countLess value n b := by
  apply Finset.card_lt_card
  rw [Finset.ssubset_iff_of_subset (Finset.monotone_filter_right _ fun _ _ hc => hc.trans hless)]
  exact ⟨a, Finset.mem_filter.mpr ⟨ha, hless⟩, by simp⟩

theorem exists_firstOf (ha : a ∈ valuesBelow value n) : ∃ index < n, FirstOf value a index := by
  classical
  obtain ⟨index, hlt, hvalue⟩ := mem_valuesBelow.mp ha
  have hexists : ∃ index, value index = some a := ⟨index, hvalue⟩
  exact ⟨Nat.find hexists, (Nat.find_min' hexists hvalue).trans_lt hlt, Nat.find_spec hexists,
    fun _ => Nat.find_min hexists⟩

/-- Of two indices or more, one that is not the first of a value shares the number 0. -/
theorem firstOf_of_apart (hn : 1 < n)
    (hapart : ∀ j < n, ∀ k < n,
      (rankRounds value n n).2 j = (rankRounds value n n).2 k → j = k)
    {j : Nat} (hj : j < n) : ∃ a, FirstOf value a j := by
  by_contra hnone
  obtain ⟨hfirst, hrest⟩ := @rankRounds_spec _ _ value n
  have hj0 : (rankRounds value n n).2 j = 0 := hrest fun a ha => (hnone ⟨a, ha⟩).elim
  rcases (valuesBelow value n).eq_empty_or_nonempty with hempty | hnonempty
  · have hzero : ∀ k < n, (rankRounds value n n).2 k = 0 := by
      intro k hk
      refine hrest fun a ha _ => ?_
      have hmem : a ∈ valuesBelow value n := mem_valuesBelow.mpr ⟨k, hk, ha.1⟩
      simp [hempty] at hmem
    exact absurd (hapart 0 (by omega) 1 hn ((hzero 0 (by omega)).trans (hzero 1 hn).symm)) (by simp)
  · obtain ⟨k, hk, hleast⟩ := exists_firstOf (Finset.min'_mem _ hnonempty)
    have hk0 : (rankRounds value n n).2 k = 0 := by
      rw [hfirst hleast hk, countLess, Finset.card_eq_zero, Finset.filter_eq_empty_iff]
      intro b hb
      exact not_lt.mpr (Finset.min'_le _ b hb)
    obtain rfl := hapart j hj k hk (hj0.trans hk0.symm)
    exact hnone ⟨_, hleast⟩

theorem rankRounds_apart_iff (hn : 1 < n) :
    (∀ j < n, ∀ k < n, (rankRounds value n n).2 j = (rankRounds value n n).2 k → j = k) ↔
      (∀ j < n, (value j).isSome) ∧ ∀ j < n, ∀ k < n, value j = value k → j = k := by
  constructor
  · intro hapart
    constructor
    · intro j hj
      obtain ⟨a, hfirst⟩ := firstOf_of_apart hn hapart hj
      simp [hfirst.1]
    · intro j hj k hk hsame
      obtain ⟨a, hfirst⟩ := firstOf_of_apart hn hapart hj
      obtain ⟨b, hother⟩ := firstOf_of_apart hn hapart hk
      obtain rfl := Option.some.inj (hfirst.1.symm.trans (hsame.trans hother.1))
      exact hother.index_unique hfirst
  · intro happart j hj k hk hsame
    obtain ⟨hsome, hvalues⟩ := happart
    have hfirst : ∀ i < n, ∃ a, FirstOf value a i := by
      intro i hi
      obtain ⟨a, ha⟩ := Option.isSome_iff_exists.mp (hsome i hi)
      refine ⟨a, ha, fun earlier hearlier hvalue => ?_⟩
      exact hearlier.ne (hvalues earlier (hearlier.trans hi) i hi (hvalue.trans ha.symm))
    obtain ⟨a, ha⟩ := hfirst j hj
    obtain ⟨b, hb⟩ := hfirst k hk
    rw [rankRounds_spec.1 ha hj, rankRounds_spec.1 hb hk] at hsame
    have hame : a = b := by
      rcases lt_trichotomy a b with hless | hsame | hless
      · exact absurd hsame (countLess_lt (mem_valuesBelow.mpr ⟨j, hj, ha.1⟩) hless).ne
      · exact hsame
      · exact absurd hsame (countLess_lt (mem_valuesBelow.mpr ⟨k, hk, hb.1⟩) hless).ne'
    exact hvalues j hj k hk (by rw [ha.1, hb.1, hame])

end Rules

end ApolloContrib.Library
