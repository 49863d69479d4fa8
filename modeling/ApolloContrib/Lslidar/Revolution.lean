import Mathlib.Data.List.Range
import ApolloContrib.Library.Run
import ApolloContrib.Library.Split
import ApolloContrib.Lslidar.Sweep

namespace ApolloContrib.Lslidar

open ApolloContrib.Library

/-! When the sweeps that are published are whole revolutions. -/

def stays (firing next : Firing) : Bool := firing.firingAzimuth ≤ next.firingAzimuth

/-- The azimuth advances by less than half a turn, modulo a turn. -/
def Advances (halfTurn : ℚ) (firing next : Firing) : Prop :=
  ∃ advance, 0 ≤ advance ∧ advance < halfTurn ∧
    (next.firingAzimuth = firing.firingAzimuth + advance ∨
      next.firingAzimuth = firing.firingAzimuth + advance - 2 * halfTurn)

/-- The decoder with all firings so far and all sweeps that were published. -/
structure History where
  decoder : LslidarDecoder
  firings : List Firing
  published : List LslidarSweep

namespace History

def init : History := ⟨LslidarDecoder.initialized, [], []⟩

def step (config : Config) (history : History) (msg : LslidarPacket) : Option History :=
  let (decoder, published) := packetCallback config history.decoder msg
  some ⟨decoder, history.firings ++ msg.firings, history.published ++ published.toList⟩

end History

/-- Before the first wrap there is no sweep. After it, the firings are those that are
discarded, those of the published sweeps one after the other, and those of the sweep that
is not yet complete, parted where the azimuth wraps. -/
def Segmented (firings : List Firing) (published : List (List Firing)) (pending : List Firing) :
    Prop :=
  (firings.IsChain fun x y => stays x y) ∧ published = [] ∧ pending = [] ∨
    ∃ start, firings.splitBy stays = start :: (published ++ [pending])

structure History.Correct (config : Config) (history : History) : Prop where
  segmented : Segmented history.firings (history.published.map (·.firings))
    history.decoder.sweepData.firings
  points : ∀ sweep ∈ history.decoder.sweepData :: history.published, sweep.Filled config
  altitudes : ∀ sweep ∈ history.published, sweep.Altitudes

/-- The test of the first firing against `last_azimuth` finds a wrap where there is one, and
there is one wrap in the packet at most. -/
structure History.Aligned (config : Config) (history : History) (msg : LslidarPacket) :
    Prop where
  first : ∀ firing ∈ msg.firings.head?,
    (config.halfTurn < |firing.firingAzimuth - history.decoder.lastAzimuth| ↔
      ∃ last ∈ history.firings.getLast?, stays last firing = false)
  once : ((history.firings.getLast?.toList ++ msg.firings).splitBy stays).length ≤ 2

/-- A packet is aligned, and does not wrap once a sweep was published. -/
structure History.Sound (config : Config) (history : History) (msg : LslidarPacket) : Prop where
  aligned : history.Aligned config msg
  altitudes : history.published ≠ [] → Continues stays history.firings msg.firings

variable {config : Config}

/-- What a packet does, for the firings before and after the wrap that is found. -/
inductive Effect (config : Config) (decoder : LslidarDecoder) (before after : List Firing) :
    LslidarDecoder → Option LslidarSweep → Prop where
  | waiting {next : LslidarDecoder} (hfirst : decoder.isFirstSweep = true) (hafter : after = [])
      (hnext : next.isFirstSweep = true) (hsweep : next.sweepData = decoder.sweepData) :
      Effect config decoder before after next none
  | started {next : LslidarDecoder} (time : ℚ) (firIdx : Nat)
      (hfirst : decoder.isFirstSweep = true) (hafter : after ≠ [])
      (hnext : next.isFirstSweep = false)
      (hsweep : next.sweepData = storeFirings config time firIdx after decoder.sweepData) :
      Effect config decoder before after next none
  | continued {next : LslidarDecoder} (time : ℚ) (firIdx : Nat)
      (hfirst : decoder.isFirstSweep = false) (hafter : after = [])
      (hnext : next.isFirstSweep = false)
      (hsweep : next.sweepData = storeFirings config time firIdx before decoder.sweepData) :
      Effect config decoder before after next none
  | published {next : LslidarDecoder} {sweep : LslidarSweep} (time nextTime : ℚ)
      (firIdx nextIdx : Nat) (hfirst : decoder.isFirstSweep = false) (hafter : after ≠ [])
      (hnext : next.isFirstSweep = false)
      (hsweep : next.sweepData = storeFirings config nextTime nextIdx after LslidarSweep.new)
      (hscans : sweep.scans =
        (storeFirings config time firIdx before decoder.sweepData).scans)
      (hfirings : sweep.firings =
        (storeFirings config time firIdx before decoder.sweepData).firings) :
      Effect config decoder before after next (some sweep)

theorem packetCallback_effect {decoder : LslidarDecoder} {msg : LslidarPacket}
    {before after : List Firing} (hfirings : msg.firings = before ++ after)
    (hlength : (findNewSweep config decoder.lastAzimuth msg.firings).2 = before.length) :
    Effect config decoder before after (packetCallback config decoder msg).1
      (packetCallback config decoder msg).2 := by
  have htotal : before.length + after.length = FIRINGS_PER_PACKET := by
    rw [← List.length_append, ← hfirings, msg.complete]
  have htake : msg.firings.take FIRINGS_PER_PACKET = msg.firings := by
    rw [← msg.complete]
    exact List.take_length
  have hend : before.length = FIRINGS_PER_PACKET ↔ after = [] := by
    rw [← List.length_eq_zero_iff]
    omega
  unfold packetCallback
  generalize findNewSweep config decoder.lastAzimuth msg.firings = found at hlength ⊢
  obtain ⟨lastAzimuth, newSweepStart⟩ := found
  dsimp only at hlength ⊢
  subst hlength
  cases hfirst : decoder.isFirstSweep with
  | true =>
      by_cases hafter : after = []
      · simp only [hend.mpr hafter, Bool.true_and, beq_self_eq_true, if_true]
        exact Effect.waiting hfirst hafter rfl rfl
      · have hne := mt hend.mp hafter
        simp only [Bool.true_and, beq_iff_eq, hne, if_false, if_true, ne_eq, not_true_eq_false,
          htake]
        refine Effect.started decoder.packetStartTime before.length hfirst hafter rfl ?_
        rw [hfirings, List.drop_left]
  | false =>
      simp only [Bool.false_and, Bool.false_eq_true, if_false]
      by_cases hafter : after = []
      · simp only [hend.mpr hafter, ne_eq, not_true_eq_false, if_false, htake, List.drop_zero]
        rw [hafter, List.append_nil] at hfirings
        rw [hfirings]
        exact Effect.continued _ _ hfirst hafter rfl rfl
      · have hne := mt hend.mp hafter
        simp only [ne_eq, hne, not_false_eq_true, if_true, List.drop_zero]
        rw [hfirings, List.take_left, List.drop_left]
        exact Effect.published _ _ _ _ hfirst hafter rfl rfl rfl rfl

theorem Advances.stays_iff {halfTurn : ℚ} {firing next : Firing}
    (hadvances : Advances halfTurn firing next) :
    stays firing next = true ↔ ¬ halfTurn < |next.firingAzimuth - firing.firingAzimuth| := by
  obtain ⟨advance, hnonneg, hless, hsame | hwrap⟩ := hadvances
  · have hdiff : next.firingAzimuth - firing.firingAzimuth = advance := by linarith
    rw [hdiff, abs_of_nonneg hnonneg]
    simp only [stays, decide_eq_true_eq]
    constructor <;> intro _ <;> linarith
  · have hdiff : next.firingAzimuth - firing.firingAzimuth = -(2 * halfTurn - advance) := by
      linarith
    rw [hdiff, abs_neg, abs_of_nonneg (by linarith)]
    simp only [stays, decide_eq_true_eq]
    constructor <;> intro _ <;> linarith

theorem findNewSweep_spec (lastAzimuth : ℚ) (firings : List Firing) :
    ∃ before after, firings = before ++ after ∧
      (findNewSweep config lastAzimuth firings).2 = before.length ∧
      (∀ firing ∈ before.head?, ¬ config.halfTurn < |firing.firingAzimuth - lastAzimuth|) ∧
      (before.IsChain fun x y => ¬ config.halfTurn < |y.firingAzimuth - x.firingAzimuth|) ∧
      ∀ firing ∈ after.head?, config.halfTurn <
        |firing.firingAzimuth - (before.getLast?.map (·.firingAzimuth)).getD lastAzimuth| := by
  induction firings generalizing lastAzimuth with
  | nil => exact ⟨[], [], rfl, rfl, by simp, by simp, by simp⟩
  | cons firing firings ih =>
      by_cases hfar : config.halfTurn < |firing.firingAzimuth - lastAzimuth|
      · refine ⟨[], firing :: firings, rfl, ?_, by simp, by simp, ?_⟩
        · simp [findNewSweep, hfar]
        · simpa using hfar
      · obtain ⟨before, after, rfl, hlength, hhead, hchain, hafter⟩ := ih firing.firingAzimuth
        refine ⟨firing :: before, after, rfl, ?_, ?_, ?_, ?_⟩
        · simp [findNewSweep, hfar, hlength]
        · simpa using hfar
        · exact List.isChain_cons.mpr ⟨hhead, hchain⟩
        · intro other hother
          have hother := hafter other hother
          cases before with
          | nil => simpa using hother
          | cons first before =>
              rw [List.getLast?_cons_cons]
              rw [List.getLast?_eq_getLast_of_ne_nil (List.cons_ne_nil first before)] at hother ⊢
              exact hother

theorem isChain_stays {firings : List Firing}
    (hadvances : firings.IsChain (Advances config.halfTurn))
    (hnear : firings.IsChain fun x y =>
      ¬ config.halfTurn < |y.firingAzimuth - x.firingAzimuth|) :
    firings.IsChain fun x y => stays x y := by
  induction firings with
  | nil => exact List.isChain_nil
  | cons firing firings ih =>
      obtain ⟨hfirst, hrest⟩ := List.isChain_cons.mp hadvances
      obtain ⟨hnearFirst, hnearRest⟩ := List.isChain_cons.mp hnear
      refine List.isChain_cons.mpr ⟨fun next hnext => ?_, ih hrest hnearRest⟩
      exact (hfirst next hnext).stays_iff.mpr (hnearFirst next hnext)

theorem continues_iff_border {firings before : List Firing} {first : Firing}
    (hbefore : (first :: before).IsChain fun x y => stays x y) :
    Continues stays firings (first :: before) ↔
      ∀ last ∈ firings.getLast?, stays last first = true := by
  unfold Continues
  cases firings.getLast? with
  | none => simp [hbefore]
  | some last =>
      simp only [Option.toList_some, List.singleton_append, List.isChain_cons_cons, hbefore,
        and_true, Option.mem_def, Option.some.injEq, forall_eq']

section Search

variable {history : History} {msg : LslidarPacket} {before after : List Firing}

theorem aligned_iff_of_nil (hfirings : msg.firings = after)
    (hafter : ∀ firing ∈ after.head?,
      config.halfTurn < |firing.firingAzimuth - history.decoder.lastAzimuth|)
    (hne : after ≠ []) :
    history.Aligned config msg ↔ BreaksAt stays history.firings [] after := by
  obtain ⟨firing, rest, rfl⟩ := List.exists_cons_of_ne_nil hne
  have hfar := hafter firing rfl
  have hcontinues : Continues stays history.firings [] := by
    unfold Continues
    cases history.firings.getLast? <;> simp
  have hcount := @length_splitBy_of_continues _ stays _ [] (firing :: rest) hcontinues
  constructor
  · intro haligned
    obtain ⟨last, hlast, hbreak⟩ := (haligned.first firing (by simp [hfirings])).mp hfar
    rw [Option.mem_def] at hlast
    have hfiringsNe : history.firings ++ [] ≠ [] := by
      rw [List.append_nil]
      intro hempty
      simp [hempty] at hlast
    have hborder : ∀ x ∈ (history.firings ++ []).getLast?, ∀ y ∈ (firing :: rest).head?,
        stays x y = false := by
      intro x hx y hy
      rw [List.append_nil, Option.mem_def] at hx
      cases hlast.symm.trans hx
      cases hy
      exact hbreak
    refine ⟨hcontinues, fun _ => ⟨hfiringsNe, hborder, ?_⟩⟩
    have honce := haligned.once
    rw [hfirings] at honce
    rw [List.nil_append] at hcount
    rw [hcount hfiringsNe hborder] at honce
    exact isChain_of_length_splitBy_le_one (by omega)
  · intro hbreaks
    obtain ⟨hfiringsNe, hborder, hchain⟩ := hbreaks.breaks hne
    have hone := length_splitBy_le_one hchain
    have htotal := hcount hfiringsNe hborder
    rw [List.append_nil] at hfiringsNe hborder
    constructor
    · intro other hother
      rw [hfirings, List.head?_cons, Option.mem_def, Option.some.injEq] at hother
      subst hother
      refine iff_of_true hfar ⟨_, List.getLast?_eq_getLast_of_ne_nil hfiringsNe, ?_⟩
      exact hborder _ (List.getLast?_eq_getLast_of_ne_nil hfiringsNe) firing rfl
    · rw [hfirings]
      rw [List.nil_append] at htotal
      omega

theorem aligned_iff_of_cons {first : Firing}
    (hfirings : msg.firings = (first :: before) ++ after)
    (hnear : ¬ config.halfTurn < |first.firingAzimuth - history.decoder.lastAzimuth|)
    (hbefore : (first :: before).IsChain fun x y => stays x y)
    (hborder : ∀ x ∈ (first :: before).getLast?, ∀ y ∈ after.head?, stays x y = false) :
    history.Aligned config msg ↔ BreaksAt stays history.firings (first :: before) after := by
  have hfiringsNe : history.firings ++ (first :: before) ≠ [] := by simp
  have hborder' : ∀ x ∈ (history.firings ++ (first :: before)).getLast?, ∀ y ∈ after.head?,
      stays x y = false := by
    rwa [List.getLast?_append_of_ne_nil _ (List.cons_ne_nil first before)]
  have hcount := fun (hcontinues : Continues stays history.firings _) =>
    length_splitBy_of_continues hcontinues hfiringsNe hborder'
  constructor
  · intro haligned
    have hcontinues : Continues stays history.firings (first :: before) := by
      refine (continues_iff_border hbefore).mpr fun last hlast => ?_
      by_contra hbreak
      exact hnear ((haligned.first first (by simp [hfirings])).mpr
        ⟨last, hlast, by simpa using hbreak⟩)
    refine ⟨hcontinues, fun _ => ⟨hfiringsNe, hborder', ?_⟩⟩
    have honce := haligned.once
    rw [hfirings, hcount hcontinues] at honce
    exact isChain_of_length_splitBy_le_one (by omega)
  · intro hbreaks
    constructor
    · intro other hother
      rw [hfirings, List.cons_append, List.head?_cons, Option.mem_def,
        Option.some.injEq] at hother
      subst hother
      refine iff_of_false hnear ?_
      rintro ⟨last, hlast, hbreak⟩
      have hstays := (continues_iff_border hbefore).mp hbreaks.continues last hlast
      rw [hstays] at hbreak
      cases hbreak
    · rw [hfirings, hcount hbreaks.continues]
      by_cases hempty : after = []
      · simp [hempty]
      · have hone := length_splitBy_le_one (hbreaks.breaks hempty).2.2
        omega

end Search

theorem exists_breaksAt_iff (history : History) (msg : LslidarPacket)
    (hadvances : (history.firings ++ msg.firings).IsChain (Advances config.halfTurn)) :
    ∃ before after, msg.firings = before ++ after ∧
      (findNewSweep config history.decoder.lastAzimuth msg.firings).2 = before.length ∧
      (history.Aligned config msg ↔ BreaksAt stays history.firings before after) := by
  obtain ⟨before, after, hfirings, hlength, hhead, hnear, hafter⟩ :=
    @findNewSweep_spec config history.decoder.lastAzimuth msg.firings
  refine ⟨before, after, hfirings, hlength, ?_⟩
  have hne : msg.firings ≠ [] := List.ne_nil_of_length_pos (by rw [msg.complete]; decide)
  rw [hfirings] at hadvances hne
  obtain ⟨_, hpacket, _⟩ := List.isChain_append.mp hadvances
  obtain ⟨hbeforeAdvances, _, hmiddle⟩ := List.isChain_append.mp hpacket
  cases before with
  | nil => exact aligned_iff_of_nil hfirings hafter hne
  | cons first before =>
      refine aligned_iff_of_cons hfirings (hhead first rfl)
        (isChain_stays hbeforeAdvances hnear) fun x hx y hy => ?_
      have hfar := hafter y hy
      rw [Option.mem_def] at hx
      rw [hx, Option.map_some, Option.getD_some] at hfar
      have hstays := (hmiddle x hx y hy).stays_iff
      cases hxy : stays x y with
      | false => rfl
      | true => exact absurd hfar (hstays.mp hxy)

namespace History

/-- Until the first wrap is found the sweep is empty. After it, the sweep is the last part of
the firings. -/
structure Inv (config : Config) (history : History) : Prop where
  waiting : history.decoder.isFirstSweep = true →
    (history.firings.IsChain fun x y => stays x y) ∧ history.published = [] ∧
      history.decoder.sweepData.firings = []
  started : history.decoder.isFirstSweep = false →
    ∃ start, history.firings.splitBy stays =
      start :: (history.published.map (·.firings) ++ [history.decoder.sweepData.firings])
  points : ∀ sweep ∈ history.decoder.sweepData :: history.published, sweep.Filled config
  altitudes : ∀ sweep ∈ history.published, sweep.Altitudes
  initial : history.published = [] → history.decoder.sweepData.Altitudes
  later : history.published ≠ [] →
    ∀ scanIdx, (history.decoder.sweepData.scans (remap scanIdx)).altitude = 0

variable {history next : History} {msg : LslidarPacket}

theorem inv_init : init.Inv config where
  waiting _ := ⟨List.isChain_nil, rfl, initialized_firings⟩
  started := by
    intro hfirst
    cases hfirst
  points := by
    intro sweep hsweep scanIdx
    rw [init, List.mem_singleton] at hsweep
    subst hsweep
    rw [initialized_scan, initialized_firings]
    rfl
  altitudes := by simp [init]
  initial _ scanIdx := by rw [init, initialized_scan]
  later hpublished := absurd rfl hpublished

theorem Inv.correct (hinv : history.Inv config) : history.Correct config where
  segmented := by
    cases hfirst : history.decoder.isFirstSweep with
    | true =>
        obtain ⟨hchain, hpublished, hpending⟩ := hinv.waiting hfirst
        exact Or.inl ⟨hchain, by rw [hpublished]; rfl, hpending⟩
    | false => exact Or.inr (hinv.started hfirst)
  points := hinv.points
  altitudes := hinv.altitudes

theorem step_effect (history : History) (msg : LslidarPacket)
    (hadvances : (history.firings ++ msg.firings).IsChain (Advances config.halfTurn)) :
    ∃ before after next published, msg.firings = before ++ after ∧
      Effect config history.decoder before after next published ∧
      history.step config msg =
        some ⟨next, history.firings ++ (before ++ after), history.published ++ published.toList⟩ ∧
      (history.Aligned config msg ↔ BreaksAt stays history.firings before after) := by
  obtain ⟨before, after, hfirings, hlength, haligned⟩ :=
    exists_breaksAt_iff history msg hadvances
  refine ⟨before, after, _, _, hfirings, packetCallback_effect hfirings hlength, ?_, haligned⟩
  rw [← hfirings]
  rfl

theorem storeFirings_altitudes {sweep : LslidarSweep} (haltitudes : sweep.Altitudes) (time : ℚ)
    (firIdx : Nat) (firings : List Firing) :
    (storeFirings config time firIdx firings sweep).Altitudes := fun scanIdx =>
  (storeFirings_altitude time firIdx firings sweep scanIdx).trans (haltitudes scanIdx)

theorem points_cons {sweep : LslidarSweep} {published : List LslidarSweep}
    (hsweep : sweep.Filled config) (hpublished : ∀ other ∈ published, other.Filled config) :
    ∀ other ∈ sweep :: published, other.Filled config := by
  intro other hother
  rcases List.mem_cons.mp hother with rfl | hother
  · exact hsweep
  · exact hpublished other hother

theorem filled_of_eq {sweep other : LslidarSweep} (hother : other.Filled config)
    (hscans : sweep.scans = other.scans) (hfirings : sweep.firings = other.firings) :
    sweep.Filled config := by
  intro scanIdx
  rw [hscans, hfirings]
  exact hother scanIdx

theorem Inv.step (hinv : history.Inv config) {before after : List Firing}
    {next : LslidarDecoder} {published : Option LslidarSweep}
    (heffect : Effect config history.decoder before after next published)
    (hbreaks : BreaksAt stays history.firings before after)
    (haltitudes : after ≠ [] → history.published = []) :
    Inv config
      ⟨next, history.firings ++ (before ++ after), history.published ++ published.toList⟩ := by
  have hpending := hinv.points history.decoder.sweepData List.mem_cons_self
  have hpoints : ∀ sweep ∈ history.published, sweep.Filled config := fun sweep hsweep =>
    hinv.points sweep (List.mem_cons_of_mem _ hsweep)
  cases heffect with
  | waiting hfirst hafter hnext hsweep =>
      obtain ⟨hchain, hpublished, hempty⟩ := hinv.waiting hfirst
      simp only [Option.toList_none, List.append_nil, hafter]
      refine ⟨fun _ => ⟨?_, hpublished, hsweep ▸ hempty⟩, fun hstarted => ?_, ?_, hinv.altitudes,
        hsweep ▸ hinv.initial, hsweep ▸ hinv.later⟩
      · exact isChain_append_of_continues hchain hbreaks.continues
      · rw [hnext] at hstarted
        cases hstarted
      · exact hsweep ▸ hinv.points
  | started time firIdx hfirst hafter hnext hsweep =>
      obtain ⟨hchain, hpublished, hempty⟩ := hinv.waiting hfirst
      simp only [Option.toList_none, List.append_nil]
      refine ⟨fun hwaiting => ?_, fun _ => ⟨history.firings ++ before, ?_⟩, ?_, hinv.altitudes,
        fun _ => ?_, fun hlater => absurd hpublished hlater⟩
      · rw [hnext] at hwaiting
        cases hwaiting
      · rw [hbreaks.splitBy_of_isChain hchain hafter, hpublished, hsweep, storeFirings_firings,
          hempty]
        rfl
      · exact points_cons (hsweep ▸ hpending.storeFirings time firIdx) hpoints
      · exact hsweep ▸ storeFirings_altitudes (hinv.initial hpublished) time firIdx after
  | continued time firIdx hfirst hafter hnext hsweep =>
      obtain ⟨start, hsplit⟩ := hinv.started hfirst
      simp only [Option.toList_none, List.append_nil, hafter]
      refine ⟨fun hwaiting => ?_, fun _ => ⟨start, ?_⟩, ?_, hinv.altitudes, fun hnone => ?_,
        fun hlater scanIdx => ?_⟩
      · rw [hnext] at hwaiting
        cases hwaiting
      · rw [← List.cons_append] at hsplit
        rw [splitBy_append_of_continues hsplit hbreaks.continues, hsweep, storeFirings_firings]
        rfl
      · exact points_cons (hsweep ▸ hpending.storeFirings time firIdx) hpoints
      · exact hsweep ▸ storeFirings_altitudes (hinv.initial hnone) time firIdx before
      · rw [hsweep, storeFirings_altitude]
        exact hinv.later hlater scanIdx
  | published time nextTime firIdx nextIdx hfirst hafter hnext hsweep hscans hfirings =>
      rename_i sweep
      obtain ⟨start, hsplit⟩ := hinv.started hfirst
      have hnone := haltitudes hafter
      simp only [Option.toList_some]
      refine ⟨fun hwaiting => ?_, fun _ => ⟨start, ?_⟩, ?_, ?_, fun hempty => ?_,
        fun _ scanIdx => ?_⟩
      · rw [hnext] at hwaiting
        cases hwaiting
      · rw [← List.cons_append] at hsplit
        rw [hbreaks.splitBy hsplit hafter, List.map_append, List.map_singleton, hfirings, hsweep,
          storeFirings_firings, storeFirings_firings]
        rfl
      · refine points_cons (hsweep ▸ filled_new.storeFirings nextTime nextIdx) ?_
        intro other hother
        rcases List.mem_append.mp hother with hold | hnew
        · exact hpoints other hold
        · rw [List.mem_singleton.mp hnew]
          exact filled_of_eq (hpending.storeFirings time firIdx) hscans hfirings
      · intro other hother scanIdx
        rw [hnone, List.nil_append] at hother
        rw [List.mem_singleton.mp hother, hscans]
        exact storeFirings_altitudes (hinv.initial hnone) time firIdx before scanIdx
      · simp at hempty
      · rw [hsweep, storeFirings_altitude]
        exact new_altitude scanIdx

theorem started_flatten {firings start pending : List Firing} {published : List (List Firing)}
    (hsplit : firings.splitBy stays = start :: (published ++ [pending])) :
    firings = (start :: published).flatten ++ pending ∧ pending ≠ [] := by
  obtain ⟨hflatten, hnil, _⟩ := List.splitBy_eq_iff.mp hsplit
  exact ⟨by rw [hflatten]; simp, fun hempty => hnil (by simp [hempty])⟩

/-- Where the sweeps come out right, the packet breaks where it was taken to break. -/
theorem Inv.breaksAt (hinv : history.Inv config) {before after : List Firing}
    {next : LslidarDecoder} {published : Option LslidarSweep}
    (heffect : Effect config history.decoder before after next published)
    (hcorrect : Correct config
      ⟨next, history.firings ++ (before ++ after), history.published ++ published.toList⟩) :
    BreaksAt stays history.firings before after := by
  have hsegmented := hcorrect.segmented
  cases heffect with
  | waiting hfirst hafter hnext hsweep =>
      obtain ⟨_, _, hempty⟩ := hinv.waiting hfirst
      subst hafter
      refine ⟨?_, fun hafter => absurd rfl hafter⟩
      rcases hsegmented with ⟨hchain, _, _⟩ | ⟨start, hsplit⟩
      · rw [List.append_nil] at hchain
        exact continues_of_isChain_append hchain
      · rw [hsweep, hempty] at hsplit
        have hnil := (List.splitBy_eq_iff.mp hsplit).2.1
        simp at hnil
  | started time firIdx hfirst hafter hnext hsweep =>
      obtain ⟨_, hpublished, hempty⟩ := hinv.waiting hfirst
      rw [hsweep, storeFirings_firings, hempty, List.nil_append, hpublished] at hsegmented
      rcases hsegmented with ⟨_, _, hpending⟩ | ⟨start, hsplit⟩
      · exact absurd hpending hafter
      · have hstart : start = history.firings ++ before := by
          have hflatten := (List.splitBy_eq_iff.mp hsplit).1
          rw [← List.append_assoc] at hflatten
          exact (List.append_cancel_right (hflatten.trans (by simp))).symm
        rw [hstart] at hsplit
        have hparts : (history.firings ++ (before ++ after)).splitBy stays =
            ([] : List (List Firing)) ++ [history.firings ++ before] ++ [after] := hsplit
        exact breaksAt_of_splitBy rfl (Or.inr rfl) hparts
  | continued time firIdx hfirst hafter hnext hsweep =>
      obtain ⟨start, hold⟩ := hinv.started hfirst
      obtain ⟨hflatten, hpending⟩ := started_flatten hold
      subst hafter
      rw [hsweep, storeFirings_firings] at hsegmented
      simp only [Option.toList_none, List.append_nil] at hsegmented
      refine ⟨?_, fun hafter => absurd rfl hafter⟩
      rcases hsegmented with ⟨_, _, hempty⟩ | ⟨start', hsplit⟩
      · exact absurd (List.append_eq_nil_iff.mp hempty).1 hpending
      · have hstart : start' = start := by
          have hwhole := (List.splitBy_eq_iff.mp hsplit).1
          rw [hflatten] at hwhole
          simpa using hwhole.symm
        rw [hstart, ← List.cons_append] at hsplit
        exact continues_of_splitBy hflatten hpending hsplit
  | published time nextTime firIdx nextIdx hfirst hafter hnext hsweep hscans hfirings =>
      obtain ⟨start, hold⟩ := hinv.started hfirst
      obtain ⟨hflatten, hpending⟩ := started_flatten hold
      rw [hsweep, storeFirings_firings] at hsegmented
      simp only [Option.toList_some, List.map_append, List.map_singleton, hfirings,
        storeFirings_firings] at hsegmented
      rcases hsegmented with ⟨_, hempty, _⟩ | ⟨start', hsplit⟩
      · simp at hempty
      · have hstart : start' = start := by
          have hwhole := (List.splitBy_eq_iff.mp hsplit).1
          rw [hflatten] at hwhole
          simpa [LslidarSweep.new] using hwhole.symm
        rw [hstart, ← List.cons_append, ← List.cons_append] at hsplit
        exact breaksAt_of_splitBy hflatten (Or.inl hpending) hsplit

theorem scan_altitude_ne : SCAN_ALTITUDE 0 ≠ 0 := by norm_num [SCAN_ALTITUDE]

/-- Where the sweeps come out right, the packet was sound: a second sweep would have no
altitudes. -/
theorem Inv.sound (hinv : history.Inv config) {before after : List Firing}
    {next : LslidarDecoder} {published : Option LslidarSweep}
    (hfirings : msg.firings = before ++ after)
    (heffect : Effect config history.decoder before after next published)
    (haligned : history.Aligned config msg ↔ BreaksAt stays history.firings before after)
    (hcorrect : Correct config
      ⟨next, history.firings ++ (before ++ after), history.published ++ published.toList⟩) :
    history.Sound config msg := by
  have hbreaks := hinv.breaksAt heffect hcorrect
  refine ⟨haligned.mpr hbreaks, fun hpublished => ?_⟩
  have hafter : after = [] := by
    cases heffect with
    | waiting hfirst hafter hnext hsweep => exact hafter
    | started time firIdx hfirst hafter hnext hsweep =>
        exact absurd (hinv.waiting hfirst).2.1 hpublished
    | continued time firIdx hfirst hafter hnext hsweep => exact hafter
    | published time nextTime firIdx nextIdx hfirst hafter hnext hsweep hscans hfirings =>
        rename_i sweep
        have haltitude := hcorrect.altitudes sweep (by simp) 0
        rw [hscans, storeFirings_altitude, hinv.later hpublished] at haltitude
        exact absurd haltitude.symm scan_altitude_ne
  rw [hfirings, hafter, List.append_nil]
  exact hbreaks.continues

theorem Sound.published_eq_nil (hsound : history.Sound config msg) {before after : List Firing}
    (hfirings : msg.firings = before ++ after)
    (hbreaks : BreaksAt stays history.firings before after) (hafter : after ≠ []) :
    history.published = [] := by
  by_contra hpublished
  have hcontinues := hsound.altitudes hpublished
  rw [hfirings] at hcontinues
  exact hbreaks.not_continues hafter hcontinues

theorem Inv.throughout_iff (hinv : history.Inv config) (packets : List LslidarPacket)
    (hadvances : (history.firings ++ packets.flatMap (·.firings)).IsChain
      (Advances config.halfTurn)) :
    Throughout (History.step config) (Correct config) history packets ↔
      StepsMeet (History.step config) (Sound config) history packets := by
  induction packets generalizing history with
  | nil => exact iff_of_true (throughout_nil.mpr hinv.correct) stepsMeet_nil
  | cons msg packets ih =>
      rw [List.flatMap_cons, ← List.append_assoc] at hadvances
      obtain ⟨before, after, next, published, hfirings, heffect, hstep, haligned⟩ :=
        step_effect history msg (List.isChain_append.mp hadvances).1
      rw [hfirings] at hadvances
      have hrest : history.Sound config msg → _ := fun hsound =>
        have hbreaks := haligned.mp hsound.aligned
        ih (hinv.step heffect hbreaks (hsound.published_eq_nil hfirings hbreaks)) hadvances
      rw [throughout_cons, stepsMeet_cons]
      constructor
      · rintro ⟨_, hall⟩
        have hnext := hall _ hstep
        have hsound := hinv.sound hfirings heffect haligned
          (hnext [] List.nil_prefix _ rfl)
        refine ⟨hsound, fun other hother => ?_⟩
        obtain rfl := Option.some.inj (hstep.symm.trans hother)
        exact (hrest hsound).mp hnext
      · rintro ⟨hsound, hmeet⟩
        refine ⟨hinv.correct, fun other hother => ?_⟩
        obtain rfl := Option.some.inj (hstep.symm.trans hother)
        exact (hrest hsound).mpr (hmeet _ hstep)

/-- The sweeps are whole revolutions with their altitudes exactly in the runs whose packets
are all sound. -/
theorem correct_iff_sound (config : Config) (packets : List LslidarPacket)
    (hadvances : (packets.flatMap (·.firings)).IsChain (Advances config.halfTurn)) :
    Throughout (step config) (Correct config) init packets ↔
      StepsMeet (step config) (Sound config) init packets :=
  inv_init.throughout_iff packets hadvances

/-! A sensor that is first heard of in the second half of its turn. -/

def radians : Config := ⟨0, 100, 3141592653589793 / 10 ^ 15, 0, 0, 0, 0⟩

def firingAt (azimuth : ℚ) : Firing := ⟨azimuth, fun _ => azimuth, fun _ => 1, fun _ => 0⟩

def packetFrom (azimuth : ℚ) : LslidarPacket where
  stamp := 0
  firings := (List.range 24).map fun (i : ℕ) => firingAt (azimuth + i / 100)
  complete := by simp

theorem packetFrom_advances (azimuth : ℚ) :
    (packetFrom azimuth).firings.IsChain (Advances radians.halfTurn) := by
  refine (List.isChain_map _).mpr ((List.isChain_range_succ _ 23).mpr fun i _ => ?_)
  refine ⟨1 / 100, by norm_num, by norm_num [radians], Or.inl ?_⟩
  simp only [firingAt, Nat.cast_add, Nat.cast_one, Nat.succ_eq_add_one]
  ring

theorem second_half_advances :
    ([packetFrom 4, packetFrom 0].flatMap (·.firings)).IsChain (Advances radians.halfTurn) := by
  rw [List.flatMap_cons, List.flatMap_singleton]
  refine List.isChain_append.mpr ⟨packetFrom_advances 4, packetFrom_advances 0, ?_⟩
  intro last hlast first hfirst
  have hlast' : last = firingAt (4 + (23 : ℕ) / 100) := (Option.some.inj hlast).symm
  have hfirst' : first = firingAt (0 + (0 : ℕ) / 100) := (Option.some.inj hfirst).symm
  refine ⟨0 - (4 + 23 / 100) + 2 * radians.halfTurn, ?_, ?_, Or.inr ?_⟩
  · norm_num [radians]
  · norm_num [radians]
  · rw [hlast', hfirst']
    simp only [firingAt]
    norm_num

theorem correct_iff_sound_second_half :
    Throughout (step radians) (Correct radians) init [packetFrom 4, packetFrom 0] ↔
      StepsMeet (step radians) (Sound radians) init [packetFrom 4, packetFrom 0] :=
  correct_iff_sound radians [packetFrom 4, packetFrom 0] second_half_advances

theorem correct_fails :
    ¬ Throughout (step radians) (Correct radians) init [packetFrom 4, packetFrom 0] := by
  intro hcorrect
  have hmeet := (inv_init.throughout_iff _ second_half_advances).mp hcorrect
  have hsound := (stepsMeet_cons.mp hmeet).1
  have hwrap := (hsound.aligned.first (firingAt (4 + (0 : ℕ) / 100)) rfl).mp (by
    norm_num [firingAt, radians, init, LslidarDecoder.initialized])
  obtain ⟨last, hlast, _⟩ := hwrap
  cases hlast

end History

end ApolloContrib.Lslidar
