import Mathlib
import ApolloContrib.Library.Ieee
import ApolloContrib.Library.Ranking

namespace ApolloContrib.Velodyne.Calibration

open Library Library.Ieee

/-! How `calibration.cc` numbers the lasers of a calibration file. An angle is the bits of a
`float`; the loops compare it as a `double`, in the same order. -/

structure LaserCorrection where
  vertCorrection : Nat
  laserRing : Nat
deriving DecidableEq, Repr

abbrev LaserCorrections := Int → Option LaserCorrection

/-- What `operator[]` gives. -/
def entry (corrections : LaserCorrections) (id : Int) : LaserCorrection :=
  (corrections id).getD ⟨0, 0⟩

/-- What `operator[]` leaves in the map. -/
def touch (corrections : LaserCorrections) (id : Int) : LaserCorrections :=
  Function.update corrections id (some (entry corrections id))

def storeRing (corrections : LaserCorrections) (id : Int) (ring : Nat) : LaserCorrections :=
  Function.update corrections id (some { entry corrections id with laserRing := ring })

structure Search where
  corrections : LaserCorrections
  minSeen : Nat
  nextIndex : Nat

/-- The inner loop, up to the laser `j`. -/
def search (nextAngle numLasers : Nat) (corrections : LaserCorrections) : Nat → Search
  | 0 => ⟨corrections, infinity single, numLasers⟩
  | j + 1 =>
      let seen := search nextAngle numLasers corrections j
      let angle := (entry seen.corrections j).vertCorrection
      let corrections := touch seen.corrections j
      if lt single nextAngle angle && lt single angle seen.minSeen then ⟨corrections, angle, j⟩
      else { seen with corrections }

structure Rings where
  corrections : LaserCorrections
  nextAngle : Nat

/-- The outer loop, up to `ring`. It starts from -∞. -/
def rings (numLasers : Nat) (corrections : LaserCorrections) : Nat → Rings
  | 0 => ⟨corrections, 2 ^ 31 + infinity single⟩
  | ring + 1 =>
      let before := rings numLasers corrections ring
      let found := search before.nextAngle numLasers before.corrections numLasers
      if found.nextIndex < numLasers then
        ⟨storeRing found.corrections found.nextIndex ring, found.minSeen⟩
      else ⟨found.corrections, before.nextAngle⟩

/-- The ids and the angles of a file, in its order. -/
structure Node where
  numLasers : Int
  lasers : List (Int × Nat)

/-- `insert` keeps what the map has under the id. -/
def insertLaser (corrections : LaserCorrections) (laser : Int × Nat) : LaserCorrections :=
  if (corrections laser.1).isSome then corrections
  else Function.update corrections laser.1 (some ⟨laser.2, 0⟩)

def Node.listed (node : Node) : List (Int × Nat) := node.lasers.take node.numLasers.toNat

/-- The corrections, or nothing where `lasers[i]` throws. -/
def Node.read (node : Node) : Option LaserCorrections :=
  if (node.lasers.length : Int) < node.numLasers then none
  else
    let corrections := node.listed.foldl insertLaser fun _ => none
    some (rings node.numLasers.toNat corrections node.numLasers.toNat).corrections

/-- The first angle under the id; 0 where there is none. -/
def Node.angle (node : Node) (id : Int) : Nat :=
  ((node.listed.find? fun laser => laser.1 == id).map (·.2)).getD 0

def height? (angle : Nat) : Option Int :=
  if magnitude single angle < infinity single then some (rank single angle) else none

def heights (corrections : LaserCorrections) (j : Nat) : Option Int :=
  height? (entry corrections j).vertCorrection

def Node.height (node : Node) (j : Nat) : Option Int := height? (node.angle j)

theorem insertLaser_apply (corrections : LaserCorrections) (laser : Int × Nat) (id : Int) :
    insertLaser corrections laser id =
      (corrections id).or (if laser.1 = id then some ⟨laser.2, 0⟩ else none) := by
  unfold insertLaser
  by_cases hsame : laser.1 = id
  · subst hsame
    cases hbefore : corrections laser.1 <;> simp [hbefore]
  · cases hbefore : corrections laser.1 <;> simp [Function.update_of_ne (Ne.symm hsame), hsame]

theorem foldl_insertLaser_apply (lasers : List (Int × Nat)) (corrections : LaserCorrections)
    (id : Int) : lasers.foldl insertLaser corrections id =
      (corrections id).or
        ((lasers.find? fun laser => laser.1 == id).map fun laser => ⟨laser.2, 0⟩) := by
  induction lasers generalizing corrections with
  | nil => simp
  | cons laser lasers ih =>
      rw [List.foldl_cons, ih, insertLaser_apply, Option.or_assoc]
      by_cases hsame : laser.1 = id <;> simp [hsame]

theorem entry_listed (node : Node) (id : Int) :
    entry (node.listed.foldl insertLaser fun _ => none) id = ⟨node.angle id, 0⟩ := by
  rw [entry, foldl_insertLaser_apply, Node.angle]
  cases node.listed.find? fun laser => laser.1 == id <;> simp

@[simp] theorem entry_touch (corrections : LaserCorrections) (id : Int) :
    entry (touch corrections id) = entry corrections := by
  funext other
  by_cases hsame : other = id
  · subst hsame
    simp [touch, entry]
  · simp [touch, entry, Function.update_of_ne hsame]

theorem entry_storeRing (corrections : LaserCorrections) (id : Int) (ring : Nat) :
    entry (storeRing corrections id ring) =
      Function.update (entry corrections) id { entry corrections id with laserRing := ring } := by
  funext other
  by_cases hsame : other = id
  · subst hsame
    simp [storeRing, entry]
  · simp [storeRing, entry, Function.update_of_ne hsame]

@[simp] theorem entry_search (nextAngle numLasers : Nat) (corrections : LaserCorrections)
    (j : Nat) : entry (search nextAngle numLasers corrections j).corrections = entry corrections := by
  induction j with
  | zero => rfl
  | succ j ih =>
      rw [search]
      split <;> simp [ih]

theorem rank_bounds {angle : Nat} (hnumber : ¬ IsNan single angle) :
    -(infinity single : Int) ≤ rank single angle ∧ rank single angle ≤ infinity single := by
  have hle : magnitude single angle ≤ infinity single := Nat.le_of_not_lt hnumber
  unfold rank
  split <;> omega

theorem height?_eq_some {angle : Nat} {a : Int} :
    height? angle = some a ↔ ¬ IsNan single angle ∧ rank single angle = a ∧
      -(infinity single : Int) < a ∧ a < infinity single := by
  unfold height? IsNan rank
  constructor
  · intro hsome
    split at hsome
    · next hfinite =>
        have ha := Option.some.inj hsome
        split at ha <;> refine ⟨by omega, ?_, by omega, by omega⟩
        · rw [if_pos ‹_›, ha]
        · rw [if_neg ‹_›, ha]
    · cases hsome
  · intro hfinite
    obtain ⟨-, ha, hlow, hhigh⟩ := hfinite
    have hless : magnitude single angle < infinity single := by split at ha <;> omega
    rw [if_pos hless, ha]

structure Bounds (bound : WithBot Int) (nextAngle : Nat) : Prop where
  isNumber : ¬ IsNan single nextAngle
  rank : Ieee.rank single nextAngle = bound.unbotD (-(infinity single : Int))

structure Seen (numLasers : Nat) (best : Option (Int × Nat)) (seen : Search) : Prop where
  isNumber : ¬ IsNan single seen.minSeen
  rank : Ieee.rank single seen.minSeen = (best.map Prod.fst).getD (infinity single : Int)
  index : seen.nextIndex = (best.map Prod.snd).getD numLasers

theorem Bounds.lt_iff {bound : WithBot Int} {nextAngle : Nat} (hbounds : Bounds bound nextAngle)
    {a : Int} (ha : -(infinity single : Int) < a) :
    Ieee.rank single nextAngle < a ↔ bound < WithBot.some a := by
  rw [hbounds.rank]
  cases bound with
  | bot => simpa using ha
  | coe b => simp

variable {nextAngle numLasers : Nat} {bound : WithBot Int} {best : Option (Int × Nat)} {seen : Search}

theorem passes_iff (hbounds : Bounds bound nextAngle) (hseen : Seen numLasers best seen)
    (angle : Nat) :
    (lt single nextAngle angle && lt single angle seen.minSeen) = true ↔
      ∃ a, height? angle = some a ∧ bound < WithBot.some a ∧ ∀ b ∈ best, a < b.1 := by
  have hlow := (rank_bounds hbounds.isNumber).1
  have hhigh := (rank_bounds hseen.isNumber).2
  have hless : ∀ a : Int, a < infinity single →
      (a < Ieee.rank single seen.minSeen ↔ ∀ b ∈ best, a < b.1) := by
    intro a ha
    rw [hseen.rank]
    cases best <;> simp [ha]
  rw [Bool.and_eq_true, lt_iff, lt_iff]
  constructor
  · intro hpasses
    obtain ⟨⟨-, hnumber, habove⟩, -, -, hbelow⟩ := hpasses
    have hup := hlow.trans_lt habove
    have hdown := hbelow.trans_le hhigh
    exact ⟨_, height?_eq_some.mpr ⟨hnumber, rfl, hup, hdown⟩, (hbounds.lt_iff hup).mp habove,
      (hless _ hdown).mp hbelow⟩
  · intro hnext
    obtain ⟨a, hheight, habove, hbelow⟩ := hnext
    obtain ⟨hnumber, rfl, hup, hdown⟩ := height?_eq_some.mp hheight
    exact ⟨⟨hbounds.isNumber, hnumber, (hbounds.lt_iff hup).mpr habove⟩, hnumber, hseen.isNumber,
      (hless _ hdown).mpr hbelow⟩

theorem seen_search (hbounds : Bounds bound nextAngle) (corrections : LaserCorrections) (j : Nat) :
    Seen numLasers (nextValue (heights corrections) bound j)
      (search nextAngle numLasers corrections j) := by
  induction j with
  | zero =>
      have hrank : Ieee.rank single (infinity single) = infinity single := by decide
      exact ⟨(by decide : ¬ IsNan single (infinity single)), hrank, rfl⟩
  | succ j ih =>
      have hpasses := passes_iff hbounds ih (entry corrections j).vertCorrection
      rw [search, entry_search]
      by_cases hnext : (lt single nextAngle (entry corrections j).vertCorrection &&
          lt single (entry corrections j).vertCorrection
            (search nextAngle numLasers corrections j).minSeen) = true
      · obtain ⟨a, hheight, habove, hbelow⟩ := hpasses.mp hnext
        obtain ⟨hnumber, hrank, -⟩ := height?_eq_some.mp hheight
        have hvalue : heights corrections j = some a := hheight
        rw [if_pos hnext, nextValue_wins hvalue habove hbelow]
        exact ⟨hnumber, hrank, rfl⟩
      · have hkeeps : nextValue (heights corrections) bound (j + 1) =
            nextValue (heights corrections) bound j :=
          nextValue_keeps fun a hheight habove hbelow =>
            hnext (hpasses.mpr ⟨a, hheight, habove, hbelow⟩)
        rw [if_neg hnext, hkeeps]
        exact ⟨ih.isNumber, ih.rank, ih.index⟩

structure Numbered (corrections : LaserCorrections) (numLasers : Nat)
    (ranks : WithBot Int × (Nat → Nat)) (found : Rings) : Prop where
  bounds : Bounds ranks.1 found.nextAngle
  ring : ∀ j : Nat, (entry found.corrections j).laserRing = ranks.2 j
  angle : ∀ id, (entry found.corrections id).vertCorrection = (entry corrections id).vertCorrection

theorem numbered_rings {corrections : LaserCorrections}
    (hclear : ∀ id, (entry corrections id).laserRing = 0) (numLasers ring : Nat) :
    Numbered corrections numLasers (rankRounds (heights corrections) numLasers ring)
      (rings numLasers corrections ring) := by
  induction ring with
  | zero => exact ⟨⟨(by decide : ¬ IsNan single (2 ^ 31 + infinity single)),
      (by decide : rank single (2 ^ 31 + infinity single) = -(infinity single : Int))⟩,
      fun j => hclear j, fun _ => rfl⟩
  | succ ring ih =>
      have hheights : heights (rings numLasers corrections ring).corrections =
          heights corrections := by
        funext j
        exact congrArg height? (ih.angle j)
      have hseen : Seen numLasers _ _ := seen_search ih.bounds
        (rings numLasers corrections ring).corrections numLasers
      rw [hheights] at hseen
      rw [rings, rankRounds]
      cases hnext : nextValue (heights corrections)
          (rankRounds (heights corrections) numLasers ring).1 numLasers with
      | none =>
          rw [hnext] at hseen
          have hindex : (search (rings numLasers corrections ring).nextAngle numLasers
            (rings numLasers corrections ring).corrections numLasers).nextIndex = numLasers :=
            hseen.index
          simp only [hindex, lt_irrefl, if_false]
          refine ⟨ih.bounds, ?_, ?_⟩
          · simpa using ih.ring
          · simpa using ih.angle
      | some best =>
          obtain ⟨a, index⟩ := best
          rw [hnext] at hseen
          have hindex : (search (rings numLasers corrections ring).nextAngle numLasers
            (rings numLasers corrections ring).corrections numLasers).nextIndex = index :=
            hseen.index
          simp only [hindex, (nextValue_some hnext).lt, if_true]
          refine ⟨⟨hseen.isNumber, hseen.rank⟩, ?_, ?_⟩
          · intro j
            rw [entry_storeRing, entry_search]
            by_cases hj : j = index
            · subst hj
              simp
            · rw [Function.update_of_ne (Int.ofNat_inj.not.mpr hj)]
              exact (ih.ring j).trans (Function.update_of_ne hj _ _).symm
          · intro id
            rw [entry_storeRing, entry_search]
            by_cases hid : id = index
            · subst hid
              simpa using ih.angle index
            · rw [Function.update_of_ne hid]
              exact ih.angle id

theorem isSome_search (nextAngle numLasers : Nat) (corrections : LaserCorrections) (j : Nat)
    (id : Int) : ((search nextAngle numLasers corrections j).corrections id).isSome = true ↔
      (corrections id).isSome = true ∨ 0 ≤ id ∧ id < j := by
  induction j with
  | zero =>
      rw [search]
      refine (or_iff_left ?_).symm
      omega
  | succ j ih =>
      have htouch : (touch (search nextAngle numLasers corrections j).corrections j id).isSome =
          true ↔ (corrections id).isSome = true ∨ 0 ≤ id ∧ id < (j + 1 : Nat) := by
        by_cases hid : id = j
        · subst hid
          simp [touch]
        · rw [touch, Function.update_of_ne hid, ih]
          exact or_congr_right (by omega)
      rw [search]
      split <;> exact htouch

theorem isSome_storeRing (corrections : LaserCorrections) (id other : Int) (ring : Nat) :
    (storeRing corrections id ring other).isSome = true ↔
      (corrections other).isSome = true ∨ other = id := by
  by_cases hsame : other = id
  · subst hsame
    simp [storeRing]
  · simp [storeRing, hsame]

theorem isSome_rings (numLasers : Nat) (corrections : LaserCorrections) (ring : Nat) (id : Int) :
    ((rings numLasers corrections ring).corrections id).isSome = true ↔
      (corrections id).isSome = true ∨ 0 < ring ∧ 0 ≤ id ∧ id < numLasers := by
  induction ring with
  | zero => simp [rings]
  | succ ring ih =>
      have hfound := isSome_search (rings numLasers corrections ring).nextAngle numLasers
        (rings numLasers corrections ring).corrections numLasers id
      rw [ih, or_assoc] at hfound
      have hseen : 0 < ring ∧ 0 ≤ id ∧ id < numLasers ∨ 0 ≤ id ∧ id < numLasers ↔
          0 < ring + 1 ∧ 0 ≤ id ∧ id < numLasers := by omega
      rw [hseen] at hfound
      rw [rings]
      split
      next hindex =>
        refine (isSome_storeRing _ _ _ _).trans ?_
        rw [hfound]
        exact or_iff_left_of_imp fun hid => Or.inr (by omega)
      next => exact hfound

theorem laserRing_rings (numLasers : Nat) (corrections : LaserCorrections) (ring : Nat) {id : Int}
    (hid : id < 0 ∨ numLasers ≤ id) :
    (entry (rings numLasers corrections ring).corrections id).laserRing =
      (entry corrections id).laserRing := by
  induction ring with
  | zero => rfl
  | succ ring ih =>
      rw [rings]
      split
      · rw [entry_storeRing, entry_search, Function.update_of_ne (by omega), ih]
      · rw [entry_search, ih]

theorem isSome_listed (node : Node) (id : Int) :
    (node.listed.foldl insertLaser (fun _ => none) id).isSome = true ↔
      ∃ laser ∈ node.listed, laser.1 = id := by
  rw [foldl_insertLaser_apply]
  simp

/-- The first laser of each finite angle has the number of the smaller ones; all others are of
ring 0. They all have rings of their own only if no two angles are one and all are finite. Of the
lasers only those count whose id is one of the first `num_lasers` numbers, and such a number
without a laser is one of angle 0. -/
theorem read_rings {node : Node} {corrections : LaserCorrections}
    (hread : node.read = some corrections) :
    (∀ id, (entry corrections id).vertCorrection = node.angle id) ∧
    (∀ j < node.numLasers.toNat, ∀ a, FirstOf node.height a j →
      (entry corrections j).laserRing = countLess node.height node.numLasers.toNat a) ∧
    (∀ j < node.numLasers.toNat, (∀ a, ¬ FirstOf node.height a j) →
      (entry corrections j).laserRing = 0) ∧
    (∀ id : Int, id < 0 ∨ node.numLasers ≤ id → (entry corrections id).laserRing = 0) ∧
    (∀ id : Int, (corrections id).isSome = true ↔
      (∃ laser ∈ node.listed, laser.1 = id) ∨ 0 ≤ id ∧ id < node.numLasers) ∧
    (1 < node.numLasers →
      ((∀ j < node.numLasers.toNat, ∀ k < node.numLasers.toNat,
          (entry corrections j).laserRing = (entry corrections k).laserRing → j = k) ↔
        (∀ j < node.numLasers.toNat, (node.height j).isSome) ∧
          ∀ j < node.numLasers.toNat, ∀ k < node.numLasers.toNat,
            node.height j = node.height k → j = k)) := by
  unfold Node.read at hread
  split at hread
  · cases hread
  · obtain rfl := Option.some.inj hread
    have hlisted := entry_listed node
    have hheights : heights (node.listed.foldl insertLaser fun _ => none) = node.height := by
      funext j
      exact congrArg (fun correction => height? correction.vertCorrection) (hlisted j)
    have hnumbered := numbered_rings (fun id => congrArg LaserCorrection.laserRing (hlisted id))
      node.numLasers.toNat node.numLasers.toNat
    rw [hheights] at hnumbered
    obtain ⟨hfirst, hrest⟩ := @rankRounds_spec _ _ node.height node.numLasers.toNat
    refine ⟨?_, ?_, ?_, ?_, ?_, ?_⟩
    · intro id
      exact (hnumbered.angle id).trans (congrArg LaserCorrection.vertCorrection (hlisted id))
    · intro j hj a ha
      exact (hnumbered.ring j).trans (hfirst ha hj)
    · intro j _ hnone
      exact (hnumbered.ring j).trans (hrest fun a ha => (hnone a ha).elim)
    · intro id hid
      exact (laserRing_rings _ _ _ (by omega)).trans (congrArg LaserCorrection.laserRing (hlisted id))
    · intro id
      rw [isSome_rings, isSome_listed]
      exact or_congr_right (by omega)
    · intro hlasers
      simp only [hnumbered.ring]
      exact rankRounds_apart_iff (by omega)

def twoLasers : Node := ⟨2, [(0, 0x3f800000), (1, 0xbf800000)]⟩

theorem read_rings_two : ∃ corrections, twoLasers.read = some corrections ∧
    (entry corrections 1).laserRing = 0 ∧ (entry corrections 0).laserRing = 1 := by
  have hrings := (@read_rings twoLasers _ rfl).2.1
  refine ⟨_, rfl, ?_, ?_⟩
  · refine (hrings 1 (by decide) (-0x3f800000) ⟨by decide, ?_⟩).trans (by decide)
    intro earlier hearlier
    obtain rfl : earlier = 0 := by omega
    decide
  · exact (hrings 0 (by decide) 0x3f800000 ⟨by decide, by simp⟩).trans (by decide)

end ApolloContrib.Velodyne.Calibration
