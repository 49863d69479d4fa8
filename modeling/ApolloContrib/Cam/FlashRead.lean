import ApolloContrib.Cam.FlashWrite

namespace ApolloContrib.Cam

open ApolloContrib.Library

/-! `zcam_flash_read`: the flash is read chunk by chunk through the parameter pool. -/

def FLASH_READ_LIMIT : Nat := REG_PARAM_POOL_SIZE

def readLen (size : Nat) : Nat :=
  if size > FLASH_READ_LIMIT then FLASH_READ_LIMIT else size

/-- A chunk of 256 bytes is 0 as an `unsigned char`. -/
def flashReadRound (bus : I2cBus) (vars : FlashVars) : CamM FlashVars := do
  let len := readLen vars.size
  zcamParamsWrite bus 0 (flashParams vars.address len) 5
  zcamCommand bus CMD_FLASH_READ
  zcamFlashStatus bus
  zcamParamsRead bus 0 vars.pos (BitVec.ofNat 8 len)
  pure (vars.advance len)

def zcamFlashRead (bus : I2cBus) (index : BitVec 8) (address size : BitVec 32)
    (trace : Trace) : Option (Int × Trace) :=
  underLock bus index
    (whileM (fun vars => vars.size > 0) (flashReadRound bus) (size.toNat + 1)
      (FlashVars.start address size)) trace

def stores (events : Trace) : List (Nat × BitVec 8) :=
  events.filterMap fun
    | .store i byte => some (i, byte)
    | _ => none

def readLens (size : Nat) : List Nat :=
  if size > 0 then readLen size :: readLens (size - readLen size) else []
termination_by size
decreasing_by
  unfold readLen FLASH_READ_LIMIT REG_PARAM_POOL_SIZE
  split <;> omega

/-- The camera answers reads from its pool, and `CMD_FLASH_READ` with bytes of the flash;
asking for the status changes nothing. -/
structure Serves (bus : I2cBus) (respond : Response) (c : Camera)
    (flash : BitVec 32 → BitVec 8) : Prop where
  pool : ∀ trace i, i < REG_PARAM_POOL_SIZE →
    (bus trace ⟨I2C_ID_CAM_ISP, true, REG_PARAM_POOL_BASE + BitVec.ofNat 16 i, none⟩).data =
      (c.after respond trace).pool i
  read : ∀ (asked : Command) i, i < asked.length →
    respond CMD_FLASH_READ asked.pool i = flash (asked.address + BitVec.ofNat 32 i)
  status : respond CMD_FLASH_STATUS = id

def flashReads (flash : BitVec 32 → BitVec 8) (address : BitVec 32) (n : Nat) :
    List (Nat × BitVec 8) :=
  (List.range n).map fun i => (i, flash (address + BitVec.ofNat 32 i))

/-- The buffer is filled in order with what the flash holds, and every chunk is asked for
with its own length. -/
structure FlashFilled (flash : BitVec 32 → BitVec 8) (address : BitVec 32) (size : Nat)
    (reads : List Command) (events : Trace) : Prop where
  lengths : reads.map Command.length = readLens size
  filled : stores events = flashReads flash address size

theorem stores_append (events more : Trace) :
    stores (events ++ more) = stores events ++ stores more :=
  List.filterMap_append

section Chunk

variable {bus : I2cBus} {respond : Response} {c : Camera} {flash : BitVec 32 → BitVec 8}
  {trace next : Trace}

theorem Moves.camera {R : Camera → Camera → Prop} (hmoves : Moves respond R trace next) :
    R (c.after respond trace) (c.after respond next) := by
  obtain ⟨events, rfl, -, hall⟩ := hmoves
  rw [Camera.after_append]
  exact hall _

theorem Moves.stores_eq {R : Camera → Camera → Prop} (hmoves : Moves respond R trace next) :
    stores next = stores trace := by
  obtain ⟨events, rfl, hi2c, -⟩ := hmoves
  have hnone : stores events = [] := by
    refine List.filterMap_eq_nil_iff.mpr fun event hevent => ?_
    cases event with
    | store => exact (hi2c _ hevent).elim
    | lock | unlock | i2c => rfl
  rw [stores_append, hnone, List.append_nil]

/-- The camera has been asked for a chunk, and the pool is what it answered. -/
def Asked (respond : Response) (address : BitVec 32) (len : Nat) (c c' : Camera) : Prop :=
  ∃ asked : Command, Described address len asked.pool ∧
    c'.issued CMD_FLASH_READ = c.issued CMD_FLASH_READ ++ [asked] ∧
    (respond CMD_FLASH_STATUS = id → c'.pool = respond CMD_FLASH_READ asked.pool)

theorem asked_of_parts {address : BitVec 32} {len : Nat} {c c' c'' last : Camera}
    (hparams : Camera.Sets 0 (flashParams address len) 5 c c')
    (hgets : Camera.Gets respond CMD_FLASH_READ c' c'')
    (hpolled : Camera.Polled respond c'' last) : Asked respond address len c last := by
  refine ⟨⟨CMD_FLASH_READ, c'.pool⟩, fun i hi => ?_, ?_, fun hstatus => ?_⟩
  · change c'.pool i = _
    rw [hparams.2, if_pos (by omega), Nat.sub_zero]
  · rw [hpolled.1 _ (by decide), hgets.issued, Camera.issued_of_commands hparams.1]
  · rw [hpolled.2 hstatus, hgets.1]

theorem zcamParamsRead_stores (hserves : Serves bus respond c flash) (pos : Nat) (size : BitVec 8)
    (trace : Trace) :
    Ends (zcamParamsRead bus 0 pos size) trace
      (fun _ next => c.after respond next = c.after respond trace ∧
        stores next = stores trace ++
          (List.range size.toNat).map fun i => (pos + i, (c.after respond trace).pool i))
      (fun ret _ => ret ≠ 0) := by
  let Inv (i : Nat) (next : Trace) := c.after respond next = c.after respond trace ∧
    stores next = stores trace ++
      (List.range i).map fun i => (pos + i, (c.after respond trace).pool i)
  unfold zcamParamsRead
  split
  · exact ends_throw.mpr (by decide)
  next hfits =>
    suffices hloop : Ends _ trace (fun _ => Inv (0 + size.toNat)) _ by
      rwa [Nat.zero_add] at hloop
    refine ends_forLoop ?_ ⟨rfl, (List.append_nil _).symm⟩
    intro i middle _ hi hinv
    have hpool : i < REG_PARAM_POOL_SIZE := by
      change ¬0 + size.toNat > REG_PARAM_POOL_SIZE at hfits
      omega
    have haddr : (0 : BitVec 8).toNat + i = i := Nat.zero_add i
    refine ((zcamI2cRead8_unseen respond (poolAddr 0 i) middle).and
      (zdevI2c_ends _ middle)).bind ?_ ?_
    · rintro byte next ⟨hmoves, -, rfl, -⟩
      refine ⟨?_, ?_⟩
      · rw [Camera.after_append, ← hinv.1, hmoves.camera]
        rfl
      · have hbyte := hserves.pool middle i hpool
        rw [hinv.1] at hbyte
        rw [stores_append, hmoves.stores_eq, hinv.2, List.range_succ, List.map_append,
          List.append_assoc]
        rw [poolAddr, haddr, hbyte]
        rfl
    · rintro ret next ⟨⟨hret, -⟩, -⟩
      exact hret

/-- What a round has done for a chunk of `len` bytes. -/
def ReadChunk (respond : Response) (c : Camera) (flash : BitVec 32 → BitVec 8)
    (address : BitVec 32) (pos len : Nat) (trace next : Trace) : Prop :=
  ∃ asked : Command, asked.length = len % 2 ^ 8 ∧
    (c.after respond next).issued CMD_FLASH_READ =
      (c.after respond trace).issued CMD_FLASH_READ ++ [asked] ∧
    stores next = stores trace ++ (List.range (len % 2 ^ 8)).map fun i =>
      (pos + i, flash (address + BitVec.ofNat 32 i))

theorem flashReadRound_reads (hserves : Serves bus respond c flash) (vars : FlashVars)
    (trace : Trace) :
    Ends (flashReadRound bus vars) trace
      (fun vars' next => vars' = vars.advance (readLen vars.size) ∧
        ReadChunk respond c flash vars.address vars.pos (readLen vars.size) trace next)
      (fun ret _ => ret ≠ 0) := by
  unfold flashReadRound
  dsimp only
  generalize readLen vars.size = len
  refine (zcamParamsWrite_sets respond 0 (flashParams vars.address len) 5 trace).bind
    (fun _ middle hparams => ?_) fun _ _ hfailed => hfailed.1
  refine (zcamCommand_gets respond CMD_FLASH_READ middle).bind (fun _ issued hgets => ?_)
    fun _ _ hfailed => hfailed.1
  refine (zcamFlashStatus_polled respond issued).bind (fun _ polled hpolled => ?_)
    fun _ _ hfailed => hfailed.1
  have hstores : stores polled = stores trace := by
    rw [hpolled.stores_eq, hgets.stores_eq, hparams.stores_eq]
  obtain ⟨asked, hdescribed, hissued, hpool⟩ :=
    asked_of_parts (hparams.camera (c := c)) hgets.camera hpolled.camera
  refine (zcamParamsRead_stores hserves vars.pos (BitVec.ofNat 8 len) polled).bind
    (fun _ next hread => ends_pure.mpr ⟨rfl, asked, hdescribed.length_eq, ?_, ?_⟩) fun _ _ => id
  · rw [hread.1, hissued]
  · rw [hread.2, hstores, BitVec.toNat_ofNat, hpool hserves.status]
    refine congrArg _ (List.map_congr_left fun i hi => ?_)
    rw [hserves.read asked i (by rw [hdescribed.length_eq]; exact List.mem_range.mp hi),
      hdescribed.address_eq]

end Chunk

theorem readLen_spec {size : Nat} (hsize : 0 < size) :
    0 < readLen size ∧ readLen size ≤ size ∧ (size < 256 → readLen size = size) := by
  unfold readLen FLASH_READ_LIMIT REG_PARAM_POOL_SIZE
  split_ifs <;> omega

theorem readLens_of_pos {size : Nat} (hsize : 0 < size) :
    readLens size = readLen size :: readLens (size - readLen size) := by
  rw [readLens, if_pos hsize]

theorem readLens_zero : readLens 0 = [] := by
  rw [readLens, if_neg (Nat.lt_irrefl 0)]

/-- `lens` are the chunks that have been asked for, each with as much of its length as
fits. -/
structure ReadInv (respond : Response) (c : Camera) (flash : BitVec 32 → BitVec 8)
    (address : BitVec 32) (size : Nat) (trace : Trace) (lens : List Nat) (vars : FlashVars)
    (next : Trace) : Prop where
  address_eq : vars.address = address + BitVec.ofNat 32 vars.pos
  total : vars.pos + vars.size = size
  lens_eq : readLens size = lens ++ readLens vars.size
  reads : ∃ reads, (c.after respond next).issued CMD_FLASH_READ =
    (c.after respond trace).issued CMD_FLASH_READ ++ reads ∧
    reads.map Command.length = lens.map (· % 2 ^ 8)
  filled : size < 256 → stores next = stores trace ++ flashReads flash address vars.pos

section Read

variable {bus : I2cBus} {respond : Response} {c : Camera} {flash : BitVec 32 → BitVec 8}
  {address : BitVec 32} {size : Nat} {trace : Trace}

theorem flashReads_add (flash : BitVec 32 → BitVec 8) (address : BitVec 32) (n len : Nat) :
    flashReads flash address (n + len) = flashReads flash address n ++
      (List.range len).map fun i =>
        (n + i, flash (address + BitVec.ofNat 32 n + BitVec.ofNat 32 i)) := by
  unfold flashReads
  rw [List.range_add, List.map_append, List.map_map]
  refine congrArg _ (List.map_congr_left fun i _ => ?_)
  rw [Function.comp_apply, BitVec.ofNat_add, BitVec.add_assoc]

theorem ReadInv.advance {lens : List Nat} {vars : FlashVars} {middle next : Trace}
    (hinv : ReadInv respond c flash address size trace lens vars middle) (hsize : 0 < vars.size)
    (hchunk : ReadChunk respond c flash vars.address vars.pos (readLen vars.size) middle next) :
    ReadInv respond c flash address size trace (lens ++ [readLen vars.size])
      (vars.advance (readLen vars.size)) next := by
  obtain ⟨hpos, hle, hsmall⟩ := readLen_spec hsize
  obtain ⟨asked, hlength, hissued, hstores⟩ := hchunk
  obtain ⟨reads, hreads, hlengths⟩ := hinv.reads
  have htotal := hinv.total
  refine ⟨?_, ?_, ?_, ⟨reads ++ [asked], ?_, ?_⟩, fun hshort => ?_⟩
  · change vars.address + _ = _
    rw [hinv.address_eq, BitVec.add_assoc, ← BitVec.ofNat_add]
    rfl
  · change vars.pos + _ + (vars.size - _) = _
    omega
  · rw [hinv.lens_eq, readLens_of_pos hsize, List.append_assoc]
    rfl
  · rw [hissued, hreads, List.append_assoc]
  · rw [List.map_append, List.map_append, hlengths, List.map_singleton, List.map_singleton, hlength]
  · rw [hstores, hinv.filled hshort, List.append_assoc, hinv.address_eq,
      Nat.mod_eq_of_lt (by omega), ← flashReads_add]
    rfl

theorem flashReadLoop_reads (hserves : Serves bus respond c flash) (address size : BitVec 32)
    (trace : Trace) :
    Ends (whileM (fun vars => vars.size > 0) (flashReadRound bus) (size.toNat + 1)
        (FlashVars.start address size)) trace
      (fun out next => ∃ vars, out = some vars ∧
        ReadInv respond c flash address size.toNat trace (readLens size.toNat) vars next ∧
        vars.pos = size.toNat)
      (fun ret _ => ret ≠ 0) := by
  let Inv (vars : FlashVars) (next : Trace) :=
    ∃ lens, ReadInv respond c flash address size.toNat trace lens vars next
  have hstart : Inv (FlashVars.start address size) trace :=
    ⟨[], (BitVec.add_zero address).symm, Nat.zero_add _, rfl, ⟨[], (List.append_nil _).symm, rfl⟩,
      fun _ => (List.append_nil _).symm⟩
  refine (ends_whileM FlashVars.size ?_ hstart (Nat.lt_succ_self _)).imp ?_ fun _ _ => id
  · rintro vars middle ⟨lens, hinv⟩ hcond
    have hsize : 0 < vars.size := of_decide_eq_true hcond
    obtain ⟨hpos, hle, -⟩ := readLen_spec hsize
    refine (flashReadRound_reads hserves vars middle).imp ?_ fun _ _ => id
    rintro _ next ⟨rfl, hchunk⟩
    refine ⟨⟨_, hinv.advance hsize hchunk⟩, ?_⟩
    change vars.size - _ < _
    omega
  · rintro _ next ⟨vars, rfl, ⟨lens, hinv⟩, hcond⟩
    have hzero : vars.size = 0 := Nat.eq_zero_of_not_pos (of_decide_eq_false hcond)
    have hlens := hinv.lens_eq
    have htotal := hinv.total
    rw [hzero, readLens_zero, List.append_nil] at hlens
    exact ⟨vars, rfl, hlens ▸ hinv, by omega⟩

/-- What a read that returns 0 has done, and what it has stored when one chunk is enough. -/
theorem zcamFlashRead_reads (hserves : Serves bus respond c flash) {index : BitVec 8}
    {address size : BitVec 32} {events : Trace}
    (hreturn : zcamFlashRead bus index address size trace = some (0, trace ++ events)) :
    ∃ reads, (c.after respond (trace ++ events)).issued CMD_FLASH_READ =
        (c.after respond trace).issued CMD_FLASH_READ ++ reads ∧
      reads.map Command.length = (readLens size.toNat).map (· % 2 ^ 8) ∧
      (size.toNat < 256 → stores events = flashReads flash address size.toNat) := by
  obtain ⟨first, vars, next, hinit, ⟨_, hvars, hinv, hpos⟩, hlast⟩ := underLock_zero hreturn
    (flashReadLoop_reads hserves address size)
  have hcamera : c.after respond (trace ++ events) = c.after respond next := by
    rw [hlast, zcamI2cFini, Camera.after_append, Camera.after_append, Camera.after_append]
    rfl
  have hstores : stores (trace ++ events) = stores next := by
    rw [hlast, zcamI2cFini, stores_append, stores_append, stores_append]
    exact (List.append_nil _).trans ((List.append_nil _).trans (List.append_nil _))
  have hfirst : c.after respond first = c.after respond trace := by
    rw [← hinit.camera, Camera.after_append]
    rfl
  obtain ⟨reads, hreads, hlengths⟩ := hinv.reads
  refine ⟨reads, ?_, hlengths, fun hshort => ?_⟩
  · rw [hcamera, hreads, hfirst]
  · have hfilled := hinv.filled hshort
    rw [← hstores, hinit.stores_eq, stores_append, stores_append, hpos,
      List.append_assoc] at hfilled
    exact List.append_cancel_left hfilled

theorem readLens_of_lt {size : Nat} (hshort : size < 256) : ∀ len ∈ readLens size, len < 2 ^ 8 := by
  intro len hlen
  rcases Nat.eq_zero_or_pos size with rfl | hsize
  · rw [readLens_zero] at hlen
    cases hlen
  · rw [readLens_of_pos hsize, (readLen_spec hsize).2.2 hshort, Nat.sub_self, readLens_zero] at hlen
    rw [List.mem_singleton.mp hlen]
    exact hshort

theorem lengths_ne_of_le {size : Nat} (hlong : 256 ≤ size) :
    (readLens size).map (· % 2 ^ 8) ≠ readLens size := by
  have hfull : readLen size = 256 := by
    unfold readLen FLASH_READ_LIMIT REG_PARAM_POOL_SIZE
    split_ifs <;> omega
  intro heq
  rw [readLens_of_pos (by omega), hfull, List.map_cons] at heq
  exact absurd (List.head_eq_of_cons_eq heq) (by decide)

end Read

/-- Every access succeeds, and every command is done when it is asked for. -/
def instantBus (respond : Response) (c : Camera) : I2cBus := fun trace acc =>
  if acc.i2cData = none ∧ REG_PARAM_POOL_BASE ≤ acc.i2cAddr then
    ⟨0, (c.after respond trace).pool (acc.i2cAddr.toNat - REG_PARAM_POOL_BASE.toNat), true⟩
  else ⟨0, 0, true⟩

def flashRespond (flash : BitVec 32 → BitVec 8) : Response := fun cmd pool i =>
  if cmd = CMD_FLASH_READ then
    flash ((⟨cmd, pool⟩ : Command).address + BitVec.ofNat 32 i)
  else pool i

theorem instantBus_serves (c : Camera) (flash : BitVec 32 → BitVec 8) :
    Serves (instantBus (flashRespond flash) c) (flashRespond flash) c flash := by
  refine ⟨fun trace i hi => ?_, fun asked i hi => if_pos rfl, rfl⟩
  have haddr := toNat_poolBase_add hi
  unfold instantBus
  dsimp only
  rw [if_pos ⟨rfl, BitVec.le_def.mpr (by omega)⟩, haddr, Nat.add_sub_cancel_left]

/-- Byte `i` of the flash is the low byte of its address. -/
def sampleFlash : BitVec 32 → BitVec 8 := fun address => address.extractLsb' 0 8

def sampleCamera : Camera := ⟨fun _ => 0, 0, []⟩

def sampleBus : I2cBus := instantBus (flashRespond sampleFlash) sampleCamera

theorem sampleRead_two :
    (zcamFlashRead sampleBus 0 7 2 []).map (fun out => (out.1, stores out.2)) =
      some (0, [(0, 7), (1, 8)]) := by
  decide +kernel

theorem sampleRead_pool :
    (zcamFlashRead sampleBus 0 0 256 []).map (fun out => (out.1, stores out.2)) =
      some (0, []) := by
  decide +kernel

theorem zcamFlashRead_filled_iff {bus : I2cBus} {respond : Response} {c : Camera}
    {flash : BitVec 32 → BitVec 8} (hserves : Serves bus respond c flash) {index : BitVec 8}
    {address size : BitVec 32} {trace events : Trace}
    (hreturn : zcamFlashRead bus index address size trace = some (0, trace ++ events)) :
    (∃ reads, (c.after respond (trace ++ events)).issued CMD_FLASH_READ =
        (c.after respond trace).issued CMD_FLASH_READ ++ reads ∧
      FlashFilled flash address size.toNat reads events) ↔ size.toNat < 256 := by
  obtain ⟨reads, hreads, hlengths, hfilled⟩ := zcamFlashRead_reads hserves hreturn
  constructor
  · rintro ⟨reads', hreads', hwhole⟩
    by_contra hlong
    obtain rfl := List.append_cancel_left (hreads.symm.trans hreads')
    exact lengths_ne_of_le (by omega) (hlengths.symm.trans hwhole.lengths)
  · intro hshort
    refine ⟨reads, hreads, ?_, hfilled hshort⟩
    rw [hlengths]
    exact (List.map_congr_left fun len hlen =>
      Nat.mod_eq_of_lt (readLens_of_lt hshort len hlen)).trans (List.map_id _)

theorem zcamFlashRead_filled_two :
    ∃ events reads, zcamFlashRead sampleBus 0 7 2 [] = some (0, [] ++ events) ∧
      (sampleCamera.after (flashRespond sampleFlash) ([] ++ events)).issued CMD_FLASH_READ =
        (sampleCamera.after (flashRespond sampleFlash) []).issued CMD_FLASH_READ ++ reads ∧
      FlashFilled sampleFlash 7 2 reads events := by
  obtain ⟨⟨ret, events⟩, hrun, hout⟩ := Option.map_eq_some_iff.mp sampleRead_two
  obtain rfl : ret = 0 := congrArg Prod.fst hout
  obtain ⟨reads, hreads, hfilled⟩ :=
    (zcamFlashRead_filled_iff (instantBus_serves sampleCamera sampleFlash) hrun).mpr (by decide)
  exact ⟨events, reads, hrun, hreads, hfilled⟩

/-- 256 bytes are asked for, and 0 is returned with none of them. -/
theorem zcamFlashRead_unfilled :
    ∃ events, Serves sampleBus (flashRespond sampleFlash) sampleCamera sampleFlash ∧
      zcamFlashRead sampleBus 0 0 256 [] = some (0, events) ∧ stores events = [] ∧
      ¬∃ reads, FlashFilled sampleFlash 0 256 reads events := by
  obtain ⟨⟨ret, events⟩, hrun, hout⟩ := Option.map_eq_some_iff.mp sampleRead_pool
  obtain rfl : ret = 0 := congrArg Prod.fst hout
  have hnone : stores events = [] := congrArg Prod.snd hout
  refine ⟨events, instantBus_serves sampleCamera sampleFlash, hrun, hnone, ?_⟩
  rintro ⟨reads, hfilled⟩
  have hlength := congrArg List.length (hnone.symm.trans hfilled.filled)
  rw [flashReads, List.length_map, List.length_range] at hlength
  cases hlength

end ApolloContrib.Cam
