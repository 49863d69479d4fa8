import ApolloContrib.Library.Division
import ApolloContrib.Library.While
import Mathlib.Data.Nat.Log

namespace ApolloContrib.Esd

open ApolloContrib.Library

/-! The division of a 64 bit number in place, and the macro for divisors that do not fit in
32 bits, as the time stamps of the driver use them. -/

structure Division where
  rem : BitVec 64
  b : BitVec 64
  res : BitVec 64
  d : BitVec 64
  deriving DecidableEq

namespace Division

/-- `(INT64)b > 0 && b < rem`. -/
def widens (s : Division) : Bool := decide (0 < s.b.toInt) && decide (s.b < s.rem)

def widen (s : Division) : Division := { s with b := s.b <<< 1, d := s.d <<< 1 }

/-- The body of the second loop. -/
def subtract (s : Division) : Division :=
  let s := if s.b ≤ s.rem then { s with rem := s.rem - s.b, res := s.res + s.d } else s
  { s with b := s.b >>> 1, d := s.d >>> 1 }

/-- `Reduce the thing a bit first`. -/
def reduced (n : BitVec 64) (base : BitVec 32) : Division :=
  let high := (n >>> 32).setWidth 32
  if base ≤ high then
    let high := high / base
    { rem := n - ((high * base).setWidth 64) <<< 32, b := base.setWidth 64
      res := (high.setWidth 64) <<< 32, d := 1 }
  else { rem := n, b := base.setWidth 64, res := 0, d := 1 }

end Division

/-- The quotient left in `*n`, and the remainder. `base` 0 traps at `high /= base`. -/
def osifDiv64_32 (n : BitVec 64) (base : BitVec 32) : Option (BitVec 64 × BitVec 32) :=
  if base = 0 then none
  else do
    let s ← whileLoop Division.widens Division.widen 64 (Division.reduced n base)
    let s ← doWhile (fun s : Division => s.d != 0) (fun s => some s.subtract) 65 s
    some (s.res, s.rem.setWidth 32)

namespace Division

variable {s : Division} {n : BitVec 64} {base : BitVec 32} {k : Nat}

theorem toNat_wide (base : BitVec 32) : (base.setWidth 64).toNat = base.toNat :=
  BitVec.toNat_setWidth_of_le (by omega)

/-- The divisor stands at place `k`. -/
structure Placed (base : BitVec 32) (k : Nat) (s : Division) : Prop where
  place : k ≤ 63
  b : s.b.toNat = base.toNat * 2 ^ k
  d : s.d.toNat = 2 ^ k

theorem Placed.widen (hplaced : Placed base k s) (hpos : base ≠ 0) (hwidens : s.widens = true) :
    Placed base (k + 1) s.widen := by
  obtain ⟨hplace, hb, hd⟩ := hplaced
  have hbase : 0 < base.toNat := Nat.pos_of_ne_zero fun h => hpos (BitVec.eq_of_toNat_eq h)
  have hsmall : s.b.toNat < 2 ^ 63 := by
    simp only [widens, Bool.and_eq_true, decide_eq_true_eq] at hwidens
    have htop := hwidens.1
    rw [BitVec.toInt_eq_toNat_cond] at htop
    split at htop <;> omega
  have hk : k < 63 := by
    by_contra hge
    obtain rfl : k = 63 := by omega
    rw [hb] at hsmall
    have := Nat.mul_le_mul_right (2 ^ 63) hbase
    omega
  have hpow : 2 ^ k ≤ 2 ^ 62 := Nat.pow_le_pow_right (by omega) (by omega)
  refine ⟨hk, ?_, ?_⟩
  · rw [Division.widen, BitVec.toNat_shiftLeft, Nat.shiftLeft_eq, Nat.mod_eq_of_lt (by omega), hb,
      Nat.pow_one, Nat.pow_succ, Nat.mul_assoc]
  · rw [Division.widen, BitVec.toNat_shiftLeft, Nat.shiftLeft_eq, Nat.mod_eq_of_lt (by omega), hd,
      Nat.pow_one, Nat.pow_succ]

/-- The divisor is put at higher places, and nothing else happens. -/
def Widening (base : BitVec 32) (start s : Division) : Prop :=
  (∃ k, Placed base k s) ∧ s.rem = start.rem ∧ s.res = start.res

theorem Widening.round {start : Division} (hpos : base ≠ 0) :
    ∀ s, Widening base start s → s.widens = true →
      Widening base start s.widen ∧ 63 - Nat.log2 s.widen.d.toNat < 63 - Nat.log2 s.d.toNat := by
  rintro s ⟨⟨k, hplaced⟩, hkept⟩ hwidens
  have hnext := hplaced.widen hpos hwidens
  have hplace := hnext.place
  refine ⟨⟨⟨k + 1, hnext⟩, hkept⟩, ?_⟩
  rw [hplaced.d, hnext.d, Nat.log2_two_pow, Nat.log2_two_pow]
  omega

theorem Placed.above (hplaced : Placed base k s) (hpos : base ≠ 0) (hstop : s.widens = false) :
    s.rem.toNat < base.toNat * 2 ^ (k + 1) := by
  have hbase : 0 < base.toNat := Nat.pos_of_ne_zero fun h => hpos (BitVec.eq_of_toNat_eq h)
  have hb : 0 < s.b.toNat := hplaced.b ▸ Nat.mul_pos hbase (Nat.two_pow_pos k)
  have hrem := s.rem.isLt
  rw [Nat.pow_succ, ← Nat.mul_assoc, ← hplaced.b]
  simp only [widens, Bool.and_eq_false_iff, decide_eq_false_iff_not, BitVec.not_lt] at hstop
  rcases hstop with htop | hle
  · -- the sign bit is reached: no dividend is twice as large
    rw [not_lt, BitVec.toInt_eq_toNat_cond] at htop
    split at htop <;> omega
  · have := BitVec.le_def.mp hle
    omega

theorem widens_ends (hplaced : Placed base 0 s) (hpos : base ≠ 0) :
    ∃ k final, whileLoop widens Division.widen 64 s = some final ∧ Placed base k final ∧
      final.rem = s.rem ∧ final.res = s.res ∧ s.rem.toNat < base.toNat * 2 ^ (k + 1) := by
  have hinit : Widening base s s := ⟨⟨0, hplaced⟩, rfl, rfl⟩
  have hfuel : 63 - Nat.log2 s.d.toNat ≤ 64 := by omega
  obtain ⟨final, hloop, ⟨⟨k, hk⟩, hrem, hres⟩, hstop⟩ :=
    whileLoop_total (fun s : Division => 63 - Nat.log2 s.d.toNat) (Widening.round hpos) hinit hfuel
  exact ⟨k, final, hloop, hk, hrem, hres, hrem ▸ hk.above hpos hstop⟩

theorem subtract_b (s : Division) : s.subtract.b = s.b >>> 1 := by
  unfold subtract
  split <;> rfl

theorem subtract_d (s : Division) : s.subtract.d = s.d >>> 1 := by
  unfold subtract
  split <;> rfl

theorem Placed.subtract (hplaced : Placed base (k + 1) s) : Placed base k s.subtract where
  place := by
    have := hplaced.place
    omega
  b := by
    rw [subtract_b, BitVec.toNat_ushiftRight, hplaced.b, Nat.shiftRight_one, Nat.pow_succ,
      ← Nat.mul_assoc, Nat.mul_div_cancel _ (by omega)]
  d := by
    rw [subtract_d, BitVec.toNat_ushiftRight, hplaced.d, Nat.shiftRight_one, Nat.pow_succ,
      Nat.mul_div_cancel _ (by omega)]

theorem Placed.divideFrom_subtract (hplaced : Placed base k s)
    (hless : s.rem.toNat < base.toNat * 2 ^ (k + 1))
    (hroom : s.res.toNat + s.rem.toNat / base.toNat < 2 ^ 64) :
    divideFrom base.toNat (k + 1) (s.rem.toNat, s.res.toNat) =
        divideFrom base.toNat k (s.subtract.rem.toNat, s.subtract.res.toNat) ∧
      s.subtract.rem.toNat < base.toNat * 2 ^ k ∧
      s.subtract.res.toNat + s.subtract.rem.toNat / base.toNat < 2 ^ 64 := by
  rw [divideFrom, ← hplaced.b]
  rw [Nat.pow_succ, ← Nat.mul_assoc, ← hplaced.b] at hless
  by_cases hfits : s.b ≤ s.rem
  · have hle : s.b.toNat ≤ s.rem.toNat := BitVec.le_def.mp hfits
    have hpos : 0 < base.toNat := Nat.pos_of_ne_zero fun hzero => by
      rw [hplaced.b, hzero] at hless
      omega
    have hquotient : s.rem.toNat / base.toNat =
        2 ^ k + (s.rem.toNat - s.b.toNat) / base.toNat := by
      obtain ⟨rest, hrest⟩ := Nat.exists_eq_add_of_le hle
      rw [hrest, Nat.add_sub_cancel_left, hplaced.b, Nat.mul_add_div hpos]
    rw [hquotient, ← Nat.add_assoc] at hroom
    have hrem : s.subtract.rem.toNat = s.rem.toNat - s.b.toNat := by
      simp only [Division.subtract, if_pos hfits]
      exact BitVec.toNat_sub_of_le hfits
    have hres : s.subtract.res.toNat = s.res.toNat + 2 ^ k := by
      simp only [Division.subtract, if_pos hfits]
      rw [BitVec.toNat_add, hplaced.d]
      exact Nat.mod_eq_of_lt (Nat.lt_of_le_of_lt (Nat.le_add_right _ _) hroom)
    rw [if_pos hle, hrem, hres]
    exact ⟨rfl, by omega, hroom⟩
  · have hlt : s.rem.toNat < s.b.toNat := BitVec.lt_def.mp (BitVec.not_le.mp hfits)
    have hrem : s.subtract.rem = s.rem := by simp only [Division.subtract, if_neg hfits]
    have hres : s.subtract.res = s.res := by simp only [Division.subtract, if_neg hfits]
    rw [if_neg (not_le.mpr hlt), hrem, hres]
    exact ⟨rfl, hlt, hroom⟩

/-- The second loop tries every place from the one of the divisor down, by induction on it. -/
theorem subtracts_end (hplaced : Placed base k s)
    (hless : s.rem.toNat < base.toNat * 2 ^ (k + 1))
    (hroom : s.res.toNat + s.rem.toNat / base.toNat < 2 ^ 64) {fuel : Nat} (hfuel : k < fuel) :
    ∃ final, doWhile (fun s : Division => s.d != 0) (fun s => some s.subtract) fuel s = some final ∧
      (final.rem.toNat, final.res.toNat) =
        divideFrom base.toNat (k + 1) (s.rem.toNat, s.res.toNat) := by
  induction k generalizing s fuel with
  | zero =>
      obtain ⟨fuel, rfl⟩ : ∃ less, fuel = less + 1 := ⟨fuel - 1, by omega⟩
      have hend : s.subtract.d = 0 := by
        apply BitVec.eq_of_toNat_eq
        rw [subtract_d, BitVec.toNat_ushiftRight, hplaced.d]
        rfl
      refine ⟨s.subtract, ?_, ?_⟩
      · simp [doWhile, hend]
      · rw [(hplaced.divideFrom_subtract hless hroom).1]
        rfl
  | succ k ih =>
      obtain ⟨fuel, rfl⟩ : ∃ less, fuel = less + 1 := ⟨fuel - 1, by omega⟩
      obtain ⟨hsame, hless, hroom⟩ := hplaced.divideFrom_subtract hless hroom
      have hnext := hplaced.subtract
      have hmore : (s.subtract.d != 0) = true := by
        rw [bne_iff_ne]
        rintro hzero
        have hd := hnext.d
        rw [hzero] at hd
        exact absurd hd.symm (Nat.two_pow_pos k).ne'
      have hrounds : k < fuel := by omega
      obtain ⟨final, hloop, hfinal⟩ := ih hnext hless hroom hrounds
      refine ⟨final, ?_, hfinal.trans hsame.symm⟩
      rw [doWhile, Option.bind_some, if_pos hmore]
      exact hloop

theorem reduced_placed (n : BitVec 64) (base : BitVec 32) : Placed base 0 (reduced n base) := by
  unfold reduced
  dsimp only
  have hb : (base.setWidth 64).toNat = base.toNat * 2 ^ 0 := by
    rw [toNat_wide, Nat.pow_zero, Nat.mul_one]
  split <;> exact ⟨by omega, hb, rfl⟩

theorem toNat_upper (x : BitVec 32) : ((x.setWidth 64) <<< 32).toNat = x.toNat * 2 ^ 32 := by
  have := x.isLt
  rw [BitVec.toNat_shiftLeft, toNat_wide, Nat.shiftLeft_eq]
  exact Nat.mod_eq_of_lt (by omega)

theorem reduced_eq (n : BitVec 64) (hpos : base ≠ 0) :
    (reduced n base).rem.toNat % base.toNat = n.toNat % base.toNat ∧
      (reduced n base).res.toNat + (reduced n base).rem.toNat / base.toNat =
        n.toNat / base.toNat := by
  have hbase : 0 < base.toNat := Nat.pos_of_ne_zero fun h => hpos (BitVec.eq_of_toNat_eq h)
  unfold reduced
  dsimp only
  split
  · -- `high * base` and the shifts stay in their widths
    obtain ⟨high, hhigh⟩ : ∃ high, high = (n >>> 32).setWidth 32 := ⟨_, rfl⟩
    rw [← hhigh]
    have hhighNat : high.toNat = n.toNat / 2 ^ 32 := by
      have := n.isLt
      rw [hhigh, BitVec.toNat_setWidth, BitVec.toNat_ushiftRight, Nat.shiftRight_eq_div_pow]
      exact Nat.mod_eq_of_lt (by omega)
    have hle : high.toNat * 2 ^ 32 ≤ n.toNat := hhighNat ▸ Nat.div_mul_le_self _ _
    obtain ⟨q, hq⟩ : ∃ q, q = high / base := ⟨_, rfl⟩
    rw [← hq]
    have hqNat : q.toNat = high.toNat / base.toNat := by rw [hq, BitVec.toNat_udiv]
    have hqle : q.toNat * base.toNat ≤ high.toNat := hqNat ▸ Nat.div_mul_le_self _ _
    have hproduct : (q * base).toNat = q.toNat * base.toNat := by
      rw [BitVec.toNat_mul]
      exact Nat.mod_eq_of_lt (Nat.lt_of_le_of_lt hqle high.isLt)
    have hres : ((q.setWidth 64) <<< 32).toNat = q.toNat * 2 ^ 32 := toNat_upper q
    have hoff : (((q * base).setWidth 64) <<< 32).toNat = q.toNat * base.toNat * 2 ^ 32 := by
      rw [toNat_upper, hproduct]
    have hcomm : q.toNat * base.toNat * 2 ^ 32 = base.toNat * (q.toNat * 2 ^ 32) := by
      rw [Nat.mul_comm q.toNat, Nat.mul_assoc]
    have hfits : base.toNat * (q.toNat * 2 ^ 32) ≤ n.toNat :=
      hcomm ▸ Nat.le_trans (Nat.mul_le_mul_right (2 ^ 32) hqle) hle
    have hrem : (n - ((q * base).setWidth 64) <<< 32).toNat =
        n.toNat - base.toNat * (q.toNat * 2 ^ 32) := by
      rw [BitVec.toNat_sub_of_le (BitVec.le_def.mpr (by rw [hoff, hcomm]; exact hfits)), hoff, hcomm]
    rw [hrem, hres]
    exact div_sub_multiple hbase hfits
  · exact ⟨rfl, Nat.zero_add _⟩

end Division

/-- The quotient and the remainder, for every dividend and every divisor but 0. -/
theorem osifDiv64_32_eq (n : BitVec 64) (base : BitVec 32) :
    osifDiv64_32 n base =
      if base = 0 then none
      else some (n / base.setWidth 64, (n % base.setWidth 64).setWidth 32) := by
  unfold osifDiv64_32
  split
  · rfl
  · next hpos =>
      obtain ⟨hmod, hdiv⟩ := Division.reduced_eq n hpos
      obtain ⟨k, placed, hwhile, hplaced, hrem, hres, hless⟩ :=
        Division.widens_ends (Division.reduced_placed n base) hpos
      rw [← hrem] at hless
      have hroom : placed.res.toNat + placed.rem.toNat / base.toNat < 2 ^ 64 := by
        rw [hrem, hres, hdiv]
        exact Nat.lt_of_le_of_lt (Nat.div_le_self _ _) n.isLt
      have hfuel : k < 65 := by
        have := hplaced.place
        omega
      obtain ⟨final, hdo, hpair⟩ := Division.subtracts_end hplaced hless hroom hfuel
      rw [divideFrom_eq hless, hrem, hres, hmod, hdiv, Prod.mk.injEq] at hpair
      have hquotient : final.res = n / base.setWidth 64 := by
        apply BitVec.eq_of_toNat_eq
        rw [BitVec.toNat_udiv, Division.toNat_wide, hpair.2]
      have hremainder : final.rem = n % base.setWidth 64 := by
        apply BitVec.eq_of_toNat_eq
        rw [BitVec.toNat_umod, Division.toNat_wide, hpair.1]
      rw [hwhile, Option.bind_eq_bind, Option.bind_some, hdo, Option.bind_some, hquotient, hremainder]

/-! Divisors of more than 32 bits: dividend and divisor are both taken in units of
`1 << osif_div64_sft`. -/

/-- `OSIF_DIV64_64`. -/
def osifDiv64_64 (sft : Nat) (n div : BitVec 64) : Option (BitVec 64) :=
  (osifDiv64_32 n ((div >>> sft).setWidth 32)).map fun result : BitVec 64 × BitVec 32 =>
    result.1 >>> sft

/-- `OSIF_DIV64_SFT_FIXUP`: how far the frequency is to be shifted for its upper half to be
clear. -/
def osifDiv64SftFixup (sft : Nat) (tickFreq : BitVec 64) : Option Nat :=
  (whileLoop (fun f : Nat × BitVec 64 => f.2 >>> 32 != 0) (fun f => (f.1 + 1, f.2 >>> 1)) 32
    (0, tickFreq)).map fun f => if sft < f.1 then f.1 else sft

structure Shifted (tickFreq : BitVec 64) (f : Nat × BitVec 64) : Prop where
  few : f.1 ≤ 32
  tick : f.2.toNat = tickFreq.toNat / 2 ^ f.1
  least : f.1 ≠ 0 → 2 ^ 31 ≤ f.2.toNat

theorem Shifted.round {tickFreq : BitVec 64} :
    ∀ f : Nat × BitVec 64, Shifted tickFreq f → (f.2 >>> 32 != 0) = true →
      Shifted tickFreq (f.1 + 1, f.2 >>> 1) ∧ 32 - (f.1 + 1) < 32 - f.1 := by
  rintro ⟨rounds, tick⟩ ⟨hfew, htick, -⟩ hhigh
  dsimp only at hfew htick hhigh ⊢
  have hlarge : 2 ^ 32 ≤ tick.toNat := by
    by_contra hsmall
    rw [bne_iff_ne] at hhigh
    refine hhigh (BitVec.eq_of_toNat_eq ?_)
    rw [BitVec.toNat_ushiftRight, Nat.shiftRight_eq_div_pow, Nat.div_eq_of_lt (not_le.mp hsmall)]
    rfl
  have hmore : rounds < 32 := by
    by_contra hge
    obtain rfl : rounds = 32 := by omega
    have := tickFreq.isLt
    omega
  refine ⟨⟨hmore, ?_, fun _ => ?_⟩, by omega⟩
  · rw [BitVec.toNat_ushiftRight, Nat.shiftRight_one, htick, Nat.div_div_eq_div_mul, Nat.pow_succ]
  · rw [BitVec.toNat_ushiftRight, Nat.shiftRight_one]
    omega

/-- The shift is the least that brings the frequency below 32 bits, and the macro then divides
by the frequency without the bits that are shifted out. -/
theorem osifDiv64_64_tickFreq (tickFreq : BitVec 64) (hpos : tickFreq ≠ 0) :
    ∃ sft, osifDiv64SftFixup 0 tickFreq = some sft ∧ tickFreq.toNat / 2 ^ sft < 2 ^ 32 ∧
      (sft ≠ 0 → 2 ^ 31 ≤ tickFreq.toNat / 2 ^ sft) ∧
      ∀ n, ∃ q, osifDiv64_64 sft n tickFreq = some q ∧
        q.toNat = n.toNat / (tickFreq.toNat / 2 ^ sft * 2 ^ sft) := by
  have hinit : Shifted tickFreq (0, tickFreq) := ⟨by omega, by simp, nofun⟩
  obtain ⟨⟨sft, tick⟩, hloop, ⟨hfew, htick, hleast⟩, hstop⟩ :=
    whileLoop_total (fun f : Nat × BitVec 64 => 32 - f.1) Shifted.round hinit (Nat.sub_le 32 0)
  dsimp only at hfew htick hleast hstop
  have hsmall : tick.toNat < 2 ^ 32 := by
    rw [bne_eq_false_iff_eq] at hstop
    have hzero := congrArg BitVec.toNat hstop
    rw [BitVec.toNat_ushiftRight, Nat.shiftRight_eq_div_pow] at hzero
    change tick.toNat / 2 ^ 32 = 0 at hzero
    omega
  have hbase : ((tickFreq >>> sft).setWidth 32).toNat = tickFreq.toNat / 2 ^ sft := by
    rw [BitVec.toNat_setWidth, BitVec.toNat_ushiftRight, Nat.shiftRight_eq_div_pow, ← htick]
    exact Nat.mod_eq_of_lt hsmall
  have hnonzero : (tickFreq >>> sft).setWidth 32 ≠ 0 := by
    intro hzero
    rw [hzero] at hbase
    rcases Nat.eq_zero_or_pos sft with rfl | hsft
    · refine hpos (BitVec.eq_of_toNat_eq ?_)
      rw [Nat.pow_zero, Nat.div_one] at hbase
      exact hbase.symm
    · have := hleast (by omega)
      rw [htick, ← hbase] at this
      exact absurd this (by decide)
  refine ⟨sft, ?_, htick ▸ hsmall, fun hne => htick ▸ hleast hne, fun n => ?_⟩
  · rw [osifDiv64SftFixup, hloop, Option.map_some]
    split <;> simp_all
  · refine ⟨(n / ((tickFreq >>> sft).setWidth 32).setWidth 64) >>> sft, ?_, ?_⟩
    · rw [osifDiv64_64, osifDiv64_32_eq, if_neg hnonzero]
      rfl
    · rw [BitVec.toNat_ushiftRight, BitVec.toNat_udiv, Division.toNat_wide, hbase,
        Nat.shiftRight_eq_div_pow, Nat.div_div_eq_div_mul]

theorem osifDiv64_64_tickFreq_fast :
    ∃ sft, osifDiv64SftFixup 0 10000000000#64 = some sft ∧
      (10000000000#64).toNat / 2 ^ sft < 2 ^ 32 ∧
      (sft ≠ 0 → 2 ^ 31 ≤ (10000000000#64).toNat / 2 ^ sft) ∧
      ∀ n, ∃ q, osifDiv64_64 sft n 10000000000#64 = some q ∧
        q.toNat = n.toNat / ((10000000000#64).toNat / 2 ^ sft * 2 ^ sft) :=
  osifDiv64_64_tickFreq _ (by decide)

end ApolloContrib.Esd
